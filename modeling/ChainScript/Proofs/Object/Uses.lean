import ChainScript.Proofs.Object.Heeding
import ChainScript.Proofs.Object.Policies

/-!
# Uses under policies

Objects and types are used by the names of their members.  Whether a use is refused for want of a
referent, and how what it yields holds its value, is decided by the policy that was in force when
the member was registered, whatever policies the builder was switched to before and after.

## Main definitions

* `Use` — what can be done with an object or with a type.
* `Use.selected?` — the member that is used, with the type that it belongs to.
* `Object.Reaches` — an object on a path, and the heap when it is reached.

## Main results

* `Use.refused`, `Use.grants` — uses of members that have nothing to refer to, and all others.
* `Object.get_noReferent_iff` — where a path is refused.
* `policy_spec` — members act by the policy in force at their own registration.
-/

namespace ChainScript.Script

variable {U : Universe}

open Run

/-- What can be done with an object, or with a registered type. -/
inductive Use (U : Universe)
  /-- The next attribute on a path, read from the object that the path has reached. -/
  | step (reached : Object U) (name : String)
  /-- A single attribute. -/
  | get (o : Object U) (name : String)
  | set (o : Object U) (name : String) (value : Object U)
  | setConverted (o : Object U) (name : String) (value : Object U)
  | call (o : Object U) (name : String) (args : List (Object U))
  | callRef (o : Object U) (name : String)
  | construct (types : Registry U) (k : Kind U) (args : List (Object U))
  | constructNamed (types : Registry U) (name : String) (args : List (Object U))
  | items (o : Object U)
  | cast (o : Object U) (k : Kind U)
  | convertedCast (o : Object U) (k : Kind U)
  | convertTo (o : Object U) (k : Kind U)
  | copy (o : Object U)
  | display (o : Object U)

namespace Use

/-- The objects that a use yields. -/
def run : Use U → Run U (List (Object U))
  | step reached name => ([·]) <$> reached.readAttribute name
  | get o name => ([·]) <$> o.get [name]
  | set o name value => (fun _ => []) <$> o.set name value
  | setConverted o name value => (fun _ => []) <$> o.setConverted name value
  | call o name args => ([·]) <$> o.call name args
  | callRef o name => ([·]) <$> o.callRef name
  | construct types k args => ([·]) <$> types.construct k args
  | constructNamed types name args => ([·]) <$> types.constructNamed name args
  | items o => o.items
  | cast o k => (fun _ => []) <$> o.cast k
  | convertedCast o k => (fun _ => []) <$> o.convertedCast k
  | convertTo o k => ([·]) <$> o.convertTo k
  | copy o => ([·]) <$> o.copy
  | display o => (fun h => (fun _ => []) (o.display h)) <$> MonadState.get

/-- The name that a refusal gives to the member. -/
def member : Use U → String
  | step _ name | get _ name | call _ name _ => name
  | construct .. | constructNamed .. => "constructor"
  | _ => "iterate"

/-- The member that is used, with the type that it belongs to, where it can yield a value by
policy. -/
def selected? : Use U → Option (Descriptor U × Seat U)
  | step o name | get o name => some (o.desc, o.reads name)
  | call o name args => some (o.desc, .overload name (args.map (·.kind)))
  | construct types k args => (types.find? k).map (·, .constructor (args.map (·.kind)))
  | constructNamed types name args =>
      (types.findName? name).map (·, .constructor (args.map (·.kind)))
  | items o => some (o.desc, .iteration)
  | _ => none

/-- Nobody else uses the value that is referred to. -/
def Free (h : Heap U) : Use U → Prop
  | get o _ => ∀ l, o.holder = .shared l → h.canWrite l = true
  | _ => True

/-- The member is reached by reference. -/
def inView : Use U → Bool
  | step reached _ => reached.holder.isView
  | get .. => true
  | _ => false

/-- The heap after a refusal: an object on a path ends. -/
def after (h : Heap U) : Use U → Heap U
  | step reached _ => reached.ended h
  | _ => h

theorem value?_after (u : Use U) (h : Heap U) (l : Loc) : (u.after h).value? l = h.value? l := by
  cases u with
  | step reached name => exact reached.value?_ended h l
  | _ => rfl

end Use

/-! ### Single uses -/

namespace Object

variable {o : Object U} {h : Heap U}

/-- A value that nobody else uses can be referred to. -/
theorem reborrow_of_free (hfree : ∀ l, o.holder = .shared l → h.canWrite l = true) :
    ∃ lent h', o.reborrow.run h = (.ok lent, h') := by
  rw [reborrow]
  cases hholder : o.holder with
  | owned l | view p guarded => exact ⟨_, _, rfl⟩
  | shared l =>
      refine ⟨o.withHolder (.view ⟨l, []⟩ true), h.setWriter l true, ?_⟩
      have hget : (MonadState.get : Run U (Heap U)).run h = (.ok h, h) := rfl
      rw [bind_of_ok hget, if_pos (hfree l hholder)]
      rfl

/-- The guard of the refused object begins and ends. -/
theorem get_refused {name : String}
    (hunbound : o.members.capture? (o.reads name) = some .unbound)
    (hfree : ∀ l, o.holder = .shared l → h.canWrite l = true) :
    (o.get [name]).run h = (.error (.noReferent o.typeName name), h) := by
  obtain ⟨lent, h', hlent⟩ := reborrow_of_free hfree
  obtain ⟨⟨guarded, rfl⟩, -, -, hended, -⟩ := reborrow_eq_ok hlent
  have hrefused := (o.withHolder (.view o.holder.place guarded)).readAttribute_refused hunbound h'
  rw [hended] at hrefused
  rw [show [name] = [] ++ [name] from rfl, o.get_concat, bind_of_ok hlent, readPath, pure_bind]
  exact hrefused

theorem grants_get_single {name : String}
    (hbound : o.members.capture? (o.reads name) ≠ some .unbound) :
    Grants (o.get [name]) fun r =>
      ∃ c, o.members.capture? (o.reads name) = some c ∧ r.mode = c.policy.mode true := by
  rw [show [name] = [] ++ [name] from rfl, o.get_concat]
  refine o.grants_reborrow.bind fun lent hlent => ?_
  obtain ⟨p, guarded, rfl⟩ := hlent
  rw [readPath, pure_bind]
  exact (o.withHolder (.view p guarded)).grants_readAttribute hbound

end Object

namespace Use

variable {u : Use U} {d : Descriptor U} {s : Seat U} {h : Heap U}

/-- A member that has nothing to refer to is refused, and nothing else happens. -/
theorem refused (hselected : u.selected? = some (d, s))
    (hunbound : d.members.capture? s = some .unbound) (hfree : u.Free h) :
    u.run.run h = (.error (.noReferent d.name u.member), u.after h) := by
  have hmap : ∀ {m : Run U (Object U)} {e : ScriptError U} {h' : Heap U},
      m.run h = (.error e, h') →
        (([·]) <$> m : Run U (List (Object U))).run h = (.error e, h') := by
    intro m e h' hm
    rw [map_eq_pure_bind]
    exact bind_of_error hm
  cases u with
  | step reached name =>
      obtain ⟨rfl, rfl⟩ := Prod.mk.inj (Option.some.inj hselected)
      exact hmap (reached.readAttribute_refused hunbound h)
  | get o name =>
      obtain ⟨rfl, rfl⟩ := Prod.mk.inj (Option.some.inj hselected)
      exact hmap (Object.get_refused hunbound hfree)
  | call o name args =>
      obtain ⟨rfl, rfl⟩ := Prod.mk.inj (Option.some.inj hselected)
      exact hmap (o.call_refused hunbound h)
  | construct types k args =>
      obtain ⟨d', hd, heq⟩ := Option.map_eq_some_iff.1 hselected
      obtain ⟨rfl, rfl⟩ := Prod.mk.inj heq
      obtain ⟨i, hi, rfl⟩ := Option.map_eq_some_iff.1 hd
      refine hmap ?_
      rw [Registry.construct, hi]
      exact types.constructAt_refused hunbound h
  | constructNamed types name args =>
      obtain ⟨d', hd, heq⟩ := Option.map_eq_some_iff.1 hselected
      obtain ⟨rfl, rfl⟩ := Prod.mk.inj heq
      obtain ⟨i, hi, rfl⟩ := Option.map_eq_some_iff.1 hd
      refine hmap ?_
      rw [Registry.constructNamed, hi]
      exact types.constructAt_refused hunbound h
  | items o =>
      obtain ⟨rfl, rfl⟩ := Prod.mk.inj (Option.some.inj hselected)
      exact o.items_refused hunbound h
  | _ => cases hselected

theorem grants_one {m : Run U (Object U)} {c? : Option Capture} {viewed : Bool}
    (hm : Grants m fun r => ∃ c, c? = some c ∧ r.mode = c.policy.mode viewed) :
    Grants (([·]) <$> m) fun rs =>
      ∃ c, c? = some c ∧ ∀ r ∈ rs, r.mode = c.policy.mode viewed :=
  hm.map fun _ ⟨c, hc, hr⟩ => ⟨c, hc, List.forall_mem_singleton.2 hr⟩

/-- Every other member is not refused for want of a referent, and yields objects that hold their
values by its policy. -/
theorem grants (hselected : u.selected? = some (d, s))
    (hbound : d.members.capture? s ≠ some .unbound) :
    Grants u.run fun rs => ∃ c, d.members.capture? s = some c ∧
      ∀ r ∈ rs, r.mode = c.policy.mode u.inView := by
  cases u with
  | step reached name =>
      obtain ⟨rfl, rfl⟩ := Prod.mk.inj (Option.some.inj hselected)
      exact grants_one (reached.grants_readAttribute hbound)
  | get o name =>
      obtain ⟨rfl, rfl⟩ := Prod.mk.inj (Option.some.inj hselected)
      exact grants_one (Object.grants_get_single hbound)
  | call o name args =>
      obtain ⟨rfl, rfl⟩ := Prod.mk.inj (Option.some.inj hselected)
      exact grants_one (o.grants_call hbound)
  | construct types k args =>
      obtain ⟨d', hd, heq⟩ := Option.map_eq_some_iff.1 hselected
      obtain ⟨rfl, rfl⟩ := Prod.mk.inj heq
      obtain ⟨i, hi, rfl⟩ := Option.map_eq_some_iff.1 hd
      refine grants_one ?_
      rw [Registry.construct, hi]
      exact types.grants_constructAt hbound
  | constructNamed types name args =>
      obtain ⟨d', hd, heq⟩ := Option.map_eq_some_iff.1 hselected
      obtain ⟨rfl, rfl⟩ := Prod.mk.inj heq
      obtain ⟨i, hi, rfl⟩ := Option.map_eq_some_iff.1 hd
      refine grants_one ?_
      rw [Registry.constructNamed, hi]
      exact types.grants_constructAt hbound
  | items o =>
      obtain ⟨rfl, rfl⟩ := Prod.mk.inj (Option.some.inj hselected)
      exact o.grants_items hbound
  | _ => cases hselected

/-- What selects no member that yields a value by policy is not refused for want of a referent. -/
theorem grants_of_not_selected (hselected : u.selected? = none) :
    Grants u.run fun _ => True := by
  have hnothing : ∀ {α : Type} {m : Run U α} {Q : α → Prop}, Grants m Q →
      Grants ((fun _ => []) <$> m : Run U (List (Object U))) fun _ => True :=
    fun hm => hm.map fun _ _ => trivial
  have hone : ∀ {m : Run U (Object U)} {Q : Object U → Prop}, Grants m Q →
      Grants (([·]) <$> m) fun _ => True :=
    fun hm => hm.map fun _ _ => trivial
  cases u with
  | step | get | call | items => cases hselected
  | set o name value => exact hnothing (o.grants_set name value)
  | setConverted o name value => exact hnothing (o.grants_setConverted name value)
  | callRef o name => exact hone (o.grants_callRef name)
  | construct types k args =>
      refine hone (Q := fun _ => False) ?_
      rw [Registry.construct, Option.map_eq_none_iff.1 (Option.map_eq_none_iff.1 hselected)]
      exact (grants_throw (Q := fun _ => False) rfl).bind fun _ hfalse => hfalse.elim
  | constructNamed types name args =>
      refine hone (Q := fun _ => False) ?_
      rw [Registry.constructNamed, Option.map_eq_none_iff.1 (Option.map_eq_none_iff.1 hselected)]
      exact (grants_throw (Q := fun _ => False) rfl).bind fun _ hfalse => hfalse.elim
  | cast o k => exact hnothing (o.grants_cast k)
  | convertedCast o k => exact hnothing (o.grants_convertedCast k)
  | convertTo o k => exact hone (o.grants_convertTo k)
  | copy o => exact hone o.grants_copy
  | display o => exact grants_get.map fun _ _ => trivial

end Use

/-! ### Paths -/

/-- The computation is refused for want of a referent. -/
def Run.Refuses {α : Type} (m : Run U α) (h : Heap U) : Prop :=
  ∃ e, (m.run h).1 = .error e ∧ e.isNoReferent = true

theorem Run.Grants.not_refuses {α : Type} {m : Run U α} {Q : α → Prop} (hm : Grants m Q)
    (h : Heap U) : ¬ Refuses m h := by
  rintro ⟨e, he, href⟩
  rw [hm.referent h e he] at href
  cases href

theorem Run.refuses_map {α β : Type} (f : α → β) (m : Run U α) (h : Heap U) :
    Refuses (f <$> m) h ↔ Refuses m h := by
  have hresult : ((f <$> m).run h).1 = (m.run h).1.map f := by
    rw [map_eq_pure_bind]
    cases hrun : m.run h with
    | mk result h' =>
        cases result with
        | error e => rw [bind_of_error hrun]; rfl
        | ok a => rw [bind_of_ok hrun]; rfl
  rw [Refuses, Refuses, hresult]
  cases (m.run h).1 <;> simp [Except.map]

namespace Object

/-- The object is reached from a reference to the value of `o` by a path, which leaves the heap
`h'`. -/
def Reaches (o : Object U) (path : List String) (h : Heap U) (x : Object U) (h' : Heap U) : Prop :=
  (o.reborrow >>= (·.readPath path)).run h = (.ok x, h')

/-- A path is refused where one of its attributes is, after what comes before it has been read. -/
theorem readPath_refuses_iff (x : Object U) (path : List String) (h : Heap U) :
    Refuses (x.readPath path) h ↔ ∃ before name rest y h', path = before ++ name :: rest ∧
      (x.readPath before).run h = (.ok y, h') ∧ Refuses (y.readAttribute name) h' := by
  induction path generalizing x h with
  | nil =>
      constructor
      · rintro ⟨e, he, -⟩
        cases he
      · rintro ⟨before, name, rest, y, h', hpath, -⟩
        simp at hpath
  | cons first path ih =>
      rw [readPath]
      cases hrun : (x.readAttribute first).run h with
      | mk result h₁ =>
          cases result with
          | error e =>
              have hbind : ∀ {β : Type} (k : Object U → Run U β),
                  (x.readAttribute first >>= k).run h = (.error e, h₁) :=
                fun k => bind_of_error hrun
              constructor
              · rintro ⟨e', he', href⟩
                rw [hbind] at he'
                exact ⟨[], first, path, x, h, rfl, rfl, e', by rw [hrun, ← he'], href⟩
              · rintro ⟨before, name, rest, y, h', hpath, hreach, hrefuses⟩
                cases before with
                | nil =>
                    obtain ⟨rfl, rfl⟩ := List.cons.inj hpath
                    obtain ⟨rfl, rfl⟩ := pure_eq_ok hreach
                    obtain ⟨e', he', href⟩ := hrefuses
                    rw [hrun] at he'
                    exact ⟨e', by rw [hbind, ← he'], href⟩
                | cons second before =>
                    obtain ⟨rfl, -⟩ := List.cons.inj hpath
                    rw [readPath, hbind] at hreach
                    cases hreach
          | ok r =>
              have hbind : ∀ {β : Type} (k : Object U → Run U β),
                  (x.readAttribute first >>= k).run h = (k r).run h₁ :=
                fun k => bind_of_ok hrun
              rw [Refuses, hbind]
              refine (ih r h₁).trans ⟨?_, ?_⟩
              · rintro ⟨before, name, rest, y, h', rfl, hreach, hrefuses⟩
                refine ⟨first :: before, name, rest, y, h', rfl, ?_, hrefuses⟩
                rw [readPath, hbind]
                exact hreach
              · rintro ⟨before, name, rest, y, h', hpath, hreach, hrefuses⟩
                cases before with
                | nil =>
                    obtain ⟨rfl, rfl⟩ := List.cons.inj hpath
                    obtain ⟨rfl, rfl⟩ := pure_eq_ok hreach
                    obtain ⟨e, he, -⟩ := hrefuses
                    rw [hrun] at he
                    cases he
                | cons second before =>
                    obtain ⟨rfl, hrest⟩ := List.cons.inj hpath
                    rw [readPath, hbind] at hreach
                    exact ⟨before, name, rest, y, h', hrest, hreach, hrefuses⟩

/-- The same for a path from an object. -/
theorem get_refuses_iff (o : Object U) (path : List String) (h : Heap U) :
    Refuses (o.get path) h ↔ ∃ before name rest y h', path = before ++ name :: rest ∧
      o.Reaches before h y h' ∧ Refuses (y.readAttribute name) h' := by
  cases path with
  | nil =>
      constructor
      · rintro ⟨e, he, href⟩
        obtain rfl := Except.error.inj he
        cases href
      · rintro ⟨before, name, rest, y, h', hpath, -⟩
        simp at hpath
  | cons first path =>
      have hget : o.get (first :: path) = o.reborrow >>= (·.readPath (first :: path)) := rfl
      rw [hget]
      cases hrun : o.reborrow.run h with
      | mk result h₁ =>
          cases result with
          | error e =>
              have href := o.grants_reborrow.referent h e (congrArg Prod.fst hrun)
              have hbind : ∀ {β : Type} (k : Object U → Run U β),
                  (o.reborrow >>= k).run h = (.error e, h₁) := fun k => bind_of_error hrun
              constructor
              · rintro ⟨e', he', href'⟩
                rw [hbind] at he'
                rw [← Except.error.inj he', href] at href'
                cases href'
              · rintro ⟨before, name, rest, y, h', -, hreach, -⟩
                rw [Reaches, hbind] at hreach
                cases hreach
          | ok lent =>
              have hbind : ∀ {β : Type} (k : Object U → Run U β),
                  (o.reborrow >>= k).run h = (k lent).run h₁ := fun k => bind_of_ok hrun
              simp only [Refuses, Reaches, hbind]
              exact lent.readPath_refuses_iff (first :: path) h₁

end Object

/-! ### Uses -/

/-- **Members act by the policy in force at their own registration.**  Let the members of a type be
what calls of a builder left.  The use of one of them is refused for want of a referent just when
the member computes its value and was registered by reference; then the values are what they were,
whatever the member computes.  What else it yields holds its value by the policy of the member:
shared, or a copy of its own, or, for a part of an owner that is itself reached by reference, a
reference.  Writing, references to parts, conversions and texts are never refused so.  A path is
refused where one of its steps is, and its last attribute is read from what the rest of the path
has reached. -/
theorem policy_spec (h : Heap U) :
    (∀ u : Use U, u.selected? = none → ¬ Refuses u.run h) ∧
    (∀ (u : Use U) (d : Descriptor U) (s : Seat U) (ds : List (Declaration d.kind)),
      u.selected? = some (d, s) → d.members = declared ds → u.Free h →
        (Refuses u.run h ↔ capturedBy s ds = some .unbound) ∧
        (capturedBy s ds = some .unbound →
          u.run.run h = (.error (.noReferent d.name u.member), u.after h) ∧
            ∀ l, (u.after h).value? l = h.value? l) ∧
        ∀ rs, (u.run.run h).1 = .ok rs →
          ∃ c, capturedBy s ds = some c ∧ ∀ r ∈ rs, r.mode = c.policy.mode u.inView) ∧
    ∀ (o : Object U) (path : List String),
      (Refuses (o.get path) h ↔ ∃ before name rest y h', path = before ++ name :: rest ∧
        o.Reaches before h y h' ∧ Refuses (Use.step y name).run h') ∧
      ∀ name y h', o.Reaches path h y h' →
        (o.get (path ++ [name])).run h = (y.readAttribute name).run h' := by
  refine ⟨fun u hselected => (Use.grants_of_not_selected hselected).not_refuses h, ?_, ?_⟩
  · intro u d s ds hselected hmembers hfree
    have hcapture : d.members.capture? s = capturedBy s ds := by
      rw [hmembers, capture?_declared]
    rw [← hcapture]
    have hrefused := fun hunbound => Use.refused hselected hunbound hfree
    refine ⟨⟨?_, ?_⟩, ?_, ?_⟩
    · intro hrefuses
      by_contra hbound
      exact (Use.grants hselected hbound).not_refuses h hrefuses
    · exact fun hunbound => ⟨_, congrArg Prod.fst (hrefused hunbound), rfl⟩
    · exact fun hunbound => ⟨hrefused hunbound, u.value?_after h⟩
    · intro rs hrs
      have hbound : d.members.capture? s ≠ some .unbound := by
        intro hunbound
        rw [hrefused hunbound] at hrs
        cases hrs
      exact (Use.grants hselected hbound).ok h rs hrs
  · intro o path
    constructor
    · simp only [Use.run, refuses_map]
      exact o.get_refuses_iff path h
    · intro name y h' hreach
      rw [o.get_concat, ← bind_assoc]
      exact bind_of_ok hreach

/-! ### A type under three policies -/

/-- Calls that switch the policy twice. -/
def gauge : List (Declaration (.int : Kind Object.bare)) :=
  [.addReadonly "half" .int (· / 2), .withPolicy .wrapReference,
    .addReadonly "twice" .int (2 * ·), .addField "all" .int Lens.id, .withPolicy .share,
    .addMethod "next" [] .int fun n _ => n + 1]

/-- A number that is shared, in the first cell. -/
def gauged : Object Object.bare where
  types := ⟨0, #[⟨.int, "gauge", 0, declared gauge⟩]⟩
  index := ⟨0, by decide⟩
  holder := .shared 0

/-- A computed value cannot be referred to; a part can, and what was registered before and after
is copied and shared. -/
theorem policy_spec_gauge :
    let h : Heap Object.bare := ⟨#[⟨⟨.int, 3⟩, 0, false⟩]⟩
    ((Use.get gauged "twice").selected? = some (gauged.desc, .getter "twice") ∧
      gauged.desc.members = declared gauge ∧ (Use.get gauged "twice").Free h) ∧
    (Use.get gauged "twice").run.run h = (.error (.noReferent "gauge" "twice"), h) ∧
    (∀ rs, ((Use.get gauged "half").run.run h).1 = .ok rs → ∀ r ∈ rs, r.mode = .owned) ∧
    (∀ rs, ((Use.get gauged "all").run.run h).1 = .ok rs → ∀ r ∈ rs, r.mode = .borrowed) ∧
    ∀ rs, ((Use.call gauged "next" []).run.run h).1 = .ok rs → ∀ r ∈ rs, r.mode = .shared := by
  intro h
  have hfree : ∀ name, (Use.get gauged name).Free h := by
    intro name l hl
    cases hl
    rfl
  have hspec := (policy_spec h).2.1
  have htwice := (hspec (.get gauged "twice") gauged.desc (.getter "twice") gauge rfl rfl
    (hfree _)).2.1 (by decide)
  refine ⟨⟨rfl, rfl, hfree _⟩, htwice.1, ?_, ?_, ?_⟩
  · intro rs hrs
    obtain ⟨c, hc, hmode⟩ := (hspec (.get gauged "half") gauged.desc (.getter "half") gauge rfl rfl
      (hfree _)).2.2 rs hrs
    obtain rfl := Option.some.inj hc
    exact hmode
  · intro rs hrs
    obtain ⟨c, hc, hmode⟩ := (hspec (.get gauged "all") gauged.desc (.getter "all") gauge rfl rfl
      (hfree _)).2.2 rs hrs
    obtain rfl := Option.some.inj hc
    exact hmode
  · intro rs hrs
    obtain ⟨c, hc, hmode⟩ := (hspec (.call gauged "next" []) gauged.desc (.overload "next" [])
      gauge rfl rfl trivial).2.2 rs hrs
    obtain rfl := Option.some.inj hc
    exact hmode

end ChainScript.Script
