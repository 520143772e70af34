import ChainScript.Gallery.Universe
import ChainScript.Proofs.Object.Fields
import ChainScript.Proofs.Session.Through

/-!
# One value behind all handles

A shared value has any number of handles.  Whatever is done through them, turn by turn, comes down
to one value: each turn that succeeds makes another value of the one before, and this is what every
handle reads.  The value may be a variable of the host program, which then has the same changes.
What was taken out of the value before, into an object of its own, stays as it was taken.

## Main definitions

* `Object.Alias` — the handles of a value.
* `Turn`, `Turn.run`, `Turn.afterAll` — what is done through handles, and the heap that it leaves.
* `Turn.effect?`, `Turn.log` — what a turn makes of a value, and the changes of a list of turns.
* `Taking` — how a value is taken out into an object of its own.

## Main results

* `Turn.step` — one turn changes the value as it says, and nothing else.
* `Turn.afterAll_eq` — any number of turns.
* `Turn.one_value_spec` — what the handles read, and what the other objects do.
-/

namespace ChainScript.Script

variable {U : Universe}

open Run

/-! ### Handles -/

/-- The handles of the object's value: the object itself, and what sharing a handle yields. -/
inductive Object.Alias (o : Object U) : Object U → Prop
  | self : o.Alias o
  | share {a b : Object U} : o.Alias a → a.shareHandle = some b → o.Alias b

/-- Another handle is like the first. -/
theorem Object.Alias.eq {o a : Object U} (A : o.Alias a) : a = o := by
  induction A with
  | self => rfl
  | share _ hb ih =>
      rw [shareHandle] at hb
      split at hb
      · exact (Option.some.inj hb).symm.trans ih
      · cases hb

/-! ### Turns -/

/-- What a host program does through handles, and to come by what it needs for that. -/
inductive Turn (U : Universe)
  /-- An attribute is written, from a value that may be converted. -/
  | assign (a : Object U) (name : String) (value : Object U) (converted : Bool)
  | call (a : Object U) (name : String) (args : List (Object U))
  /-- The value is visited, `inside` happens, and at the end the content is changed. -/
  | visit (a : Object U) (k : Kind U) (change : k.Carrier → k.Carrier) (inside : List (Turn U))
  /-- An object is made of a new value. -/
  | make (types : Registry U) (policy : Policy) (v : Value U)

namespace Turn

mutual

/-- Takes a turn. -/
def run : Turn U → Run U Unit
  | assign a name value converted => a.assign name value converted
  | call a name args => discard (a.call name args)
  | visit a k change inside => a.visitAround k change (afterAll inside)
  | make types policy v => discard (types.wrapNew policy v)

/-- The heap after some turns.  One that fails is not undone, and the others are taken all the
same. -/
def afterAll : List (Turn U) → Heap U → Heap U
  | [], h => h
  | t :: rest, h => afterAll rest ((run t).run h).2

end

/-- The heap after a turn. -/
def after (t : Turn U) (h : Heap U) : Heap U := (t.run.run h).2

/-- The turn succeeds. -/
def succeeds (t : Turn U) (h : Heap U) : Bool := (t.run.run h).1.isOk

/-- The handle through which a turn is taken. -/
def handle? : Turn U → Option (Object U)
  | assign a .. | call a .. | visit a .. => some a
  | make .. => none

/-- The turn is taken through a handle of the object's value.  The result of a method that writes
is of a registered kind.  What happens inside a visit is done through other handles, so that there
is nothing inside where the value is not shared. -/
def Through (o : Object U) : Turn U → Prop
  | assign a .. => o.Alias a
  | call a name args => o.Alias a ∧
      ∀ f, a.chosen? name args = some f → f.writes = true → a.types.contains f.ret = true
  | visit a _ _ inside => o.Alias a ∧
      (inside = [] ∨ a.mode = .shared ∧ ∀ t ∈ inside, ∀ b ∈ t.handle?, o.Alias b)
  | make .. => True

/-- What the turn makes of the value `v`, with the arguments as they are in the heap. -/
def effect? (h : Heap U) (v : Value U) : Turn U → Option (Value U)
  | assign a name value converted => a.assigned? name value converted h v
  | call a name args => a.called? name args h v
  | visit _ k change _ => (v.as? k).map fun x => ⟨k, change x⟩
  | make .. => some v

/-- The turn writes an attribute by the fallback. -/
def byFallback : Turn U → Bool
  | assign a name .. => a.leavesToFallback name
  | _ => false

/-- The change that is to be applied after a turn: its effect, if it succeeds, and also if it is
the fallback that was asked, which may write and decline then. -/
def change (t : Turn U) (h : Heap U) (v : Value U) : Value U :=
  if t.succeeds h || t.byFallback then (t.effect? h v).getD v else v

/-- The changes of some turns, in order. -/
def log : List (Turn U) → Heap U → List (Value U → Value U)
  | [], _ => []
  | t :: rest, h => t.change h :: log rest (t.after h)

/-- The value after some changes. -/
def applied (changes : List (Value U → Value U)) (v : Value U) : Value U :=
  changes.foldl (fun v f => f v) v

section Step

variable {o : Object U} {h : Heap U} {v w : Value U} {t : Turn U}

theorem change_of_none (ht : t.effect? h v = none) : t.change h v = v := by
  rw [change, ht]
  exact ite_self v

theorem change_of_same (ht : t.effect? h v = some v) : t.change h v = v := by
  rw [change, ht]
  exact ite_self v

theorem change_of_some (ht : t.effect? h v = some w)
    (hlogged : t.succeeds h = true ∨ t.byFallback = true) : t.change h v = w := by
  rw [change, if_pos (by simpa using hlogged), ht]
  rfl

/-! ### Inside a visit -/

/-- While a writer keeps the value, nothing that is done through a handle changes it. -/
theorem extends_after (hedit : o.holder.edit? h = none) (ht : ∀ a ∈ t.handle?, o.Alias a) :
    h.Extends (t.after h) := by
  cases t with
  | assign a name value converted =>
      obtain rfl := (ht a rfl).eq
      rw [after, run]
      exact Object.extends_assign hedit name value converted
  | call a name args =>
      obtain rfl := (ht a rfl).eq
      rw [after, run, run_discard]
      exact Object.extends_call hedit name args
  | visit a k change inside =>
      obtain rfl := (ht a rfl).eq
      rw [after, run]
      exact Object.extends_visitAround hedit k change _
  | make types policy v =>
      rw [after, run, run_discard]
      exact (types.keeps_wrapNew policy v).extends_run

theorem edit?_of_hasWriter {l : Loc} (hholder : o.holder = .shared l)
    (hwriter : h.hasWriter l = true) : o.holder.edit? h = none := by
  rw [hholder, Holder.edit?, if_neg]
  simp only [Heap.canWrite, Heap.hasWriter] at hwriter ⊢
  cases hc : h.cells[l]? with
  | none => simp
  | some c => simp [hc] at hwriter; simp [hwriter]

theorem extends_afterAll {l : Loc} (hholder : o.holder = .shared l)
    (hwriter : h.hasWriter l = true) {ts : List (Turn U)}
    (hts : ∀ t ∈ ts, ∀ a ∈ t.handle?, o.Alias a) : h.Extends (afterAll ts h) := by
  induction ts generalizing h with
  | nil => exact .refl h
  | cons t ts ih =>
      obtain ⟨ht, hts⟩ := List.forall_mem_cons.1 hts
      have E := extends_after (edit?_of_hasWriter hholder hwriter) ht
      exact Heap.extends_trans E (ih (E.hasWriter hwriter) hts)

/-! ### One turn -/

/-- **One turn** makes of the value what it says, and changes nothing else. -/
theorem step (R : o.Rests h v) (L : LawfulPath o.holder.place.path) (ht : t.Through o) :
    (t.change h v).kind = o.kind ∧
      (h.write o.holder.place (t.change h v)).Extends (t.after h) := by
  have hself : h.write o.holder.place v = h := Heap.write_self L R.read
  cases t with
  | assign a name value converted =>
      obtain rfl := Object.Alias.eq ht
      obtain ⟨hnone, hsome⟩ := R.assign name value converted
      cases heffect : (assign a name value converted).effect? h v with
      | none =>
          obtain ⟨e, he⟩ := hnone heffect
          rw [change_of_none heffect, after, run, he, hself]
          exact ⟨R.kind, .refl h⟩
      | some w =>
          obtain ⟨hkind, r, hrun, hr⟩ := hsome w heffect
          have hchange : (assign a name value converted).change h v = w := by
            refine change_of_some heffect (hr.imp_left fun hok => ?_)
            rw [succeeds, run, hrun, hok]
            rfl
          rw [hchange, after, run, hrun]
          exact ⟨hkind, .refl _⟩
  | call a name args =>
      obtain ⟨ha, hknown⟩ := ht
      obtain rfl := ha.eq
      obtain ⟨hnone, hsome⟩ := R.call L name args
      cases heffect : (call a name args).effect? h v with
      | none =>
          obtain ⟨e, he⟩ := hnone heffect
          rw [change_of_none heffect, after, run, run_discard, he, hself]
          exact ⟨R.kind, .refl h⟩
      | some w =>
          obtain ⟨hkind, hextends, f, hf, hsame, hok⟩ := hsome w heffect
          have hchange : (call a name args).change h v = w := by
            cases hwrites : f.writes with
            | false => exact hsame hwrites ▸ change_of_same (hsame hwrites ▸ heffect)
            | true =>
                refine change_of_some heffect (.inl ?_)
                rw [succeeds, run, isOk_discard]
                exact hok (hknown f hf hwrites)
          rw [hchange, after, run, run_discard]
          exact ⟨hkind, hextends⟩
  | visit a k change inside =>
      obtain ⟨ha, hinside⟩ := ht
      obtain rfl := ha.eq
      have hmeanwhile : (a.enter .writing h).Extends (afterAll inside (a.enter .writing h)) := by
        obtain rfl | ⟨hmode, hinside⟩ := hinside
        · exact .refl _
        · obtain ⟨l, hholder⟩ := Object.exists_shared hmode
          refine extends_afterAll hholder ?_ hinside
          obtain ⟨whole, hvalue, -⟩ := Heap.value?_isSome_of_read? R.read
          rw [hholder] at hvalue
          have henter : a.enter .writing h = h.setWriter l true := by
            simp only [Object.enter, hholder]
          rw [henter, Heap.hasWriter_setWriter_true (show h.value? l = some whole from hvalue)]
          simp
      obtain ⟨hnone, hsome⟩ := R.visitAround k change hmeanwhile
      cases hx : v.as? k with
      | none =>
          obtain ⟨e, he⟩ := hnone hx
          have heffect : (visit a k change inside).effect? h v = none := by rw [effect?, hx]; rfl
          rw [change_of_none heffect, after, run, he, hself]
          exact ⟨R.kind, .refl h⟩
      | some x =>
          obtain ⟨h₁, hrun, hextends⟩ := hsome x hx
          have heffect : (visit a k change inside).effect? h v = some ⟨k, change x⟩ := by
            rw [effect?, hx]
            rfl
          rw [change_of_some heffect (.inl (by rw [succeeds, run, hrun]; rfl)), after, run, hrun]
          exact ⟨(Value.as?_isSome_iff.1 (by rw [hx]; rfl)).symm.trans R.kind, hextends⟩
  | make types policy w =>
      rw [change_of_same rfl, after, run, run_discard, hself]
      exact ⟨R.kind, (types.keeps_wrapNew policy w).extends_run⟩

/-- **Any number of turns** leave the heap as it was, but for new cells and for the value, which is
what the changes have made of it. -/
theorem afterAll_eq {ts : List (Turn U)} (R : o.Rests h v) (L : LawfulPath o.holder.place.path)
    (hts : ∀ t ∈ ts, t.Through o) :
    (applied (log ts h) v).kind = o.kind ∧
      (h.write o.holder.place (applied (log ts h) v)).Extends (afterAll ts h) := by
  induction ts generalizing h v with
  | nil =>
      rw [log, applied, List.foldl_nil, Heap.write_self L R.read]
      exact ⟨R.kind, .refl h⟩
  | cons t ts ih =>
      obtain ⟨ht, hts⟩ := List.forall_mem_cons.1 hts
      obtain ⟨hkind, E⟩ := step R L ht
      obtain ⟨hkind', E'⟩ := ih (R.of_write L hkind E) hts
      refine ⟨hkind', ?_⟩
      -- The last of the two writes is the one that stays.
      have hwrite := Heap.write_write_of_holds L R.holds hkind hkind'
      exact Heap.extends_trans (hwrite ▸ E.write o.holder.place _) E'

/-- What the object comes to. -/
theorem rests_afterAll {ts : List (Turn U)} (R : o.Rests h v) (L : LawfulPath o.holder.place.path)
    (hts : ∀ t ∈ ts, t.Through o) : o.Rests (afterAll ts h) (applied (log ts h) v) :=
  have hafter := afterAll_eq R L hts
  R.of_write L hafter.1 hafter.2

end Step

end Turn

/-! ### Taking values out -/

/-- How a value is taken out, into an object of its own. -/
inductive Taking (U : Universe)
  | copy
  /-- The content is cast, and an object is made of it. -/
  | cast (k : Kind U) (types : Registry U) (policy : Policy)
  /-- The value is converted, unless it is of the kind already. -/
  | convert (k : Kind U)
  /-- What a path of attributes yields. -/
  | path (names : List String)
  /-- An object is made for the cell of the value, as for a variable. -/
  | bind (types : Registry U) (policy : Policy)

namespace Taking

/-- Takes the value of an object out. -/
def run (a : Object U) : Taking U → Run U (Object U)
  | copy => a.copy
  | cast k types policy => do types.wrapNew policy ⟨k, ← a.cast k⟩
  | convert k => a.convertTo k
  | path names => a.get names
  | bind types policy => do
      let v ← Run.orThrow ((← get).value? a.holder.place.root) (.borrowed a.typeName)
      types.bind a.holder.place.root v policy

/-- What is taken out has a value of its own: an attribute on the path is not a field registered by
reference, and a variable is not bound by reference. -/
def Severs (a : Object U) : Taking U → Prop
  | copy | cast .. | convert _ => True
  | path names => a.types.route? a.index names = none
  | bind _ policy => policy ≠ .wrapReference

variable {a r : Object U} {h h' : Heap U} {how : Taking U}

theorem detached_of_run (hlawful : a.types.Lawful) (L : LawfulPath a.holder.place.path)
    (hsevers : how.Severs a) (hrun : (how.run a).run h = (.ok r, h')) : r.Detached h h' := by
  cases how with
  | copy => exact (Object.keeps_copy a).extends (Nat.le_refl _) hrun
  | cast k types policy =>
      obtain ⟨x, h₁, hcast, hwrap⟩ := bind_eq_ok hrun
      obtain ⟨-, rfl⟩ := (a.finds_cast k).eq_ok hcast
      exact Object.detached_of_wrapNew hwrap
  | convert k => exact (Object.keeps_convertTo a k).extends (Nat.le_refl _) hrun
  | path names => exact (Reaching.run_eq_ok (.path names) hlawful L hrun).2 hsevers
  | bind types policy =>
      obtain ⟨h₀, h₁, hget, hrest⟩ := bind_eq_ok hrun
      obtain ⟨-, rfl⟩ := finds_get.eq_ok hget
      obtain ⟨v, h₂, hfound, hbind⟩ := bind_eq_ok hrest
      obtain ⟨-, rfl⟩ := (finds_orThrow _ _).eq_ok hfound
      cases policy with
      | copy | share => exact Object.detached_of_wrapNew hbind
      | wrapReference => exact absurd rfl hsevers

end Taking

theorem Object.copied?_of_write {r : Object U} {h h' : Heap U} {p : Place U} {v w : Value U}
    (hne : r.holder.place.root ≠ p.root) (E : (h.write p v).Extends h')
    (hw : r.copied? h = some w) : r.copied? h' = some w := by
  rw [copied?] at hw ⊢
  cases hread : r.holder.read? h with
  | none => rw [hread] at hw; cases hw
  | some u => rwa [Holder.read?_of_write hne E hread, ← hread]

/-- An object with a new cell is not in the cell of an older one. -/
theorem Object.Detached.root_ne {o r : Object U} {h h' : Heap U} {v : Value U}
    (D : r.Detached h h') (R : o.Rests h v) : r.holder.place.root ≠ o.holder.place.root := by
  obtain ⟨-, -, ⟨hcovers, -⟩, hview⟩ := D
  have hroot := Heap.root_lt_of_read? R.read
  cases hholder : r.holder with
  | owned l | shared l =>
      rw [hholder] at hcovers
      exact Nat.ne_of_gt (Nat.lt_of_lt_of_le hroot hcovers)
  | view p guarded =>
      rw [hholder] at hview
      cases hview

namespace Turn

/-- **One value behind all handles.**  The object's value lies at the end of a lawful path, and
nobody uses it; the fields of the registered types are lawful lenses.  After any turns through
handles of the value:

* every handle reads the value that the changes of the turns have made of the first one, each of
  them applied to what those before it left;
* a field is then written through any handle if the value to be written is given; every handle
  yields for it what was written, and for a field with a disjoint lens what it yielded before;
* a variable that the object refers to holds that value;
* an object with another cell has the value that it had;
* and what is taken out of the value then keeps its value, while further turns go on from the value
  of the handles. -/
theorem one_value_spec {o : Object U} {h : Heap U} {v : Value U} (hlawful : o.types.Lawful)
    (L : LawfulPath o.holder.place.path) (R : o.Rests h v) {ts : List (Turn U)}
    (hts : ∀ t ∈ ts, t.Through o) :
    let v' := applied (log ts h) v
    let h' := afterAll ts h
    (∀ a, o.Alias a → a.copyValue.run h' = (.ok v', h')) ∧
    (∀ a name ret policy lens value converted, o.Alias a → a.HasField name ret policy lens →
      (value.given? ret converted h' = none →
        ∃ e, (a.assign name value converted).run h' = (.error e, h')) ∧
      ∀ y, value.given? ret converted h' = some y →
        ∃ h₁, (a.assign name value converted).run h' = (.ok (), h₁) ∧
          ∀ b, o.Alias b → b.Yields name h₁ y ∧
            ∀ name' ret' policy' lens', a.HasField name' ret' policy' lens' →
              lens.Disjoint lens' → ∃ part, b.Yields name' h' part ∧ b.Yields name' h₁ part) ∧
    (∀ (types : Registry U) cell k h₀, (types.reference cell k).run h₀ = (.ok o, h) →
      h'.value? cell = some v') ∧
    (∀ (r : Object U) w, r.holder.place.root ≠ o.holder.place.root → r.copied? h = some w →
      r.copied? h' = some w) ∧
    (∀ (how : Taking U) a r h₁ w, o.Alias a → how.Severs a → (how.run a).run h' = (.ok r, h₁) →
      r.copied? h₁ = some w → ∀ later : List (Turn U), (∀ t ∈ later, t.Through o) →
        r.copied? (afterAll later h₁) = some w ∧
        ∀ b, o.Alias b → b.copyValue.run (afterAll later h₁) =
          (.ok (applied (log later h₁) v'), afterAll later h₁)) := by
  intro v' h'
  obtain ⟨-, E⟩ := afterAll_eq R L hts
  have R' : o.Rests h' v' := rests_afterAll R L hts
  refine ⟨fun a ha => ?_, ?_, ?_, fun r w hne hw => Object.copied?_of_write hne E hw, ?_⟩
  · obtain rfl := ha.eq
    exact R'.copyValue
  · intro a name ret policy lens value converted ha F
    obtain rfl := ha.eq
    have hlens : lens.Lawful := hlawful.field a.index name ret policy lens F.getter
    obtain ⟨x, hx⟩ := R'.exists_content
    rw [hx] at R'
    obtain ⟨hnone, hsome⟩ := R'.assign_field F hlens value converted
    refine ⟨hnone, fun y hy => ?_⟩
    obtain ⟨part, rfl, hrun⟩ := hsome y hy
    refine ⟨_, hrun, fun b hb => ?_⟩
    obtain rfl := hb.eq
    have R₁ := R'.of_write L rfl (.refl (h'.write b.holder.place ⟨b.kind, lens.put x part⟩))
    have hyields := R₁.yields_field L F hlens
    rw [hlens.view_put] at hyields
    refine ⟨hyields, fun name' ret' policy' lens' F' hdisjoint => ?_⟩
    have hlens' : lens'.Lawful := hlawful.field b.index name' ret' policy' lens' F'.getter
    have hyields' := R₁.yields_field L F' hlens'
    rw [hdisjoint] at hyields'
    exact ⟨_, R'.yields_field L F' hlens', hyields'⟩
  · intro types cell k h₀ hrun
    obtain ⟨-, i, -, rfl⟩ := Object.wrap_eq_ok hrun
    obtain ⟨whole, hvalue, hview⟩ := Heap.value?_isSome_of_read? R'.read
    exact hvalue.trans hview
  · intro how a r h₁ w ha hsevers hrun hw later hlater
    obtain rfl := ha.eq
    have D := how.detached_of_run hlawful L hsevers hrun
    have R₁ := R'.mono D.2.1
    refine ⟨Object.copied?_of_write (D.root_ne R') (afterAll_eq R₁ L hlater).2 hw, ?_⟩
    intro b hb
    obtain rfl := hb.eq
    exact (rests_afterAll R₁ L hlater).copyValue

/-! ### Shared points -/

/-- A point has its coordinates as fields, and is flipped by methods that yield the point and a
number.  Its fallback writes the whole point, and declines. -/
def dotMembers : Members (U := Gallery.world) (.host .point) :=
  let fields := (({} : Builder (U := Gallery.world) (.host .point)).addField "x" .int
    Gallery.Point.xPart).addField "y" .int Gallery.Point.yPart
  let methods := (fields.addMethodMut "flip" [] (.host .point) fun p _ =>
    (p, p.flipped)).addMethodMut "turn" [] .int fun p _ => (p.x, p.flipped)
  (methods.fallbackSetter (.host .point) fun _ _ q => (false, q)).members

/-- Points and numbers. -/
def dots : Registry Gallery.world where
  id := 0
  entries := #[⟨.host .point, "point", 0, dotMembers⟩, ⟨.int, "int", 0, {}⟩]

/-- Points alone. -/
def loneDots : Registry Gallery.world where
  id := 1
  entries := #[⟨.host .point, "point", 1, dotMembers⟩]

/-- Two points and a number. -/
def board : Heap Gallery.world :=
  ⟨#[⟨⟨.host .point, ⟨1, 2⟩⟩, 0, false⟩, ⟨⟨.int, 5⟩, 0, false⟩,
    ⟨⟨.host .point, ⟨8, 9⟩⟩, 0, false⟩]⟩

/-- The first point, shared. -/
def dot : Object Gallery.world := ⟨dots, ⟨0, by decide⟩, .shared 0⟩

/-- The first point, shared, where numbers are not registered. -/
def loneDot : Object Gallery.world := ⟨loneDots, ⟨0, by decide⟩, .shared 0⟩

/-- The number. -/
def five : Object Gallery.world := ⟨dots, ⟨1, by decide⟩, .owned 1⟩

/-- The second point. -/
def spare : Object Gallery.world := ⟨dots, ⟨0, by decide⟩, .owned 2⟩

/-- A coordinate is written; the point is visited and flipped, while another write is refused; the
fallback writes the second point and declines; and a method flips that. -/
def moves : List (Turn Gallery.world) :=
  [assign dot "x" five false,
    visit dot (.host .point) Gallery.Point.flipped [assign dot "x" five false],
    assign dot "z" spare false,
    call dot "flip" []]

theorem rests_dot : dot.Rests board ⟨.host .point, (⟨1, 2⟩ : Gallery.Point)⟩ where
  read := rfl
  kind := rfl
  free := by
    intro l hl
    obtain rfl := Holder.shared.inj hl
    rfl

theorem lawful_dots : dots.Lawful where
  field := by
    intro i name ret policy lens hgetter
    match i with
    | ⟨0, _⟩ =>
        have hgetters : dotMembers.getters = (Slots.empty.put "x"
            (.field .int .copy Gallery.Point.xPart)).put "y"
              (.field .int .copy Gallery.Point.yPart) := rfl
        change dotMembers.getters.get? name = _ at hgetter
        rw [hgetters, Slots.get?_put, Slots.get?_put] at hgetter
        split at hgetter
        · cases hgetter
          exact Gallery.Point.lawful_yPart
        · split at hgetter
          · cases hgetter
            exact Gallery.Point.lawful_xPart
          · cases hgetter
    | ⟨1, _⟩ => cases hgetter
  reference := by
    intro i name f hf
    match i with
    | ⟨0, _⟩ | ⟨1, _⟩ => cases hf

theorem through_moves : ∀ t ∈ moves, t.Through dot := by
  intro t ht
  simp only [moves, List.mem_cons, List.not_mem_nil, or_false] at ht
  obtain rfl | rfl | rfl | rfl := ht
  · exact .self
  · refine ⟨.self, .inr ⟨rfl, fun t ht a ha => ?_⟩⟩
    obtain rfl := List.mem_singleton.1 ht
    obtain rfl := Option.some.inj ha
    exact .self
  · exact .self
  · refine ⟨.self, fun f hf _ => ?_⟩
    have hflip : dot.chosen? "flip" [] =
        some ⟨[], .host .point, .copy, .writing fun p _ => (p, p.flipped)⟩ := by rfl
    obtain rfl := Option.some.inj (hflip.symm.trans hf)
    with_unfolding_all rfl

/-- The handles read what the moves have made of the first point. -/
theorem one_value_spec_dot :
    dot.copyValue.run (afterAll moves board) =
      (.ok ⟨.host .point, (⟨9, 8⟩ : Gallery.Point)⟩, afterAll moves board) := by
  have hpath : LawfulPath dot.holder.place.path := List.forall_mem_nil _
  have hvalue : applied (log moves board) ⟨.host .point, (⟨1, 2⟩ : Gallery.Point)⟩ =
      ⟨.host .point, (⟨9, 8⟩ : Gallery.Point)⟩ := by
    with_unfolding_all rfl
  rw [← hvalue]
  exact (one_value_spec lawful_dots hpath rests_dot through_moves).1 dot .self

/-- A write that fails is read back through the handles where the fallback declines after it has
written.  Where numbers are not registered, a call that fails to yield one has flipped the point,
and a field that is written with success is not read. -/
theorem declined_write_stays :
    dot.shareHandle = some dot ∧
    (assign dot "z" spare false).succeeds board = false ∧
    dot.copied? board = some ⟨.host .point, (⟨1, 2⟩ : Gallery.Point)⟩ ∧
    dot.copied? ((assign dot "z" spare false).after board) =
      some ⟨.host .point, (⟨8, 9⟩ : Gallery.Point)⟩ ∧
    (call loneDot "turn" []).succeeds board = false ∧
    loneDot.copied? ((call loneDot "turn" []).after board) =
      some ⟨.host .point, (⟨2, 1⟩ : Gallery.Point)⟩ ∧
    (assign loneDot "x" five false).succeeds board = true ∧
    ((loneDot.get ["x"]).run ((assign loneDot "x" five false).after board)).1.isOk = false := by
  refine ⟨rfl, ?_, rfl, ?_, ?_, ?_, ?_, ?_⟩ <;> with_unfolding_all rfl

end Turn

end ChainScript.Script
