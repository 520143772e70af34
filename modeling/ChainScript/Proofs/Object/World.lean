import ChainScript.Gallery.Universe
import ChainScript.Proofs.Object.Typed
import ChainScript.Script.Session.Run

/-!
# Reachable objects

A host program makes objects by registries, reaches and makes others from them, writes and calls
through them, and changes its own variables, in any order.  It has all the objects that it has
come by, and any of them may be an argument to an operation on any other.  Every object that it
has is sound: by induction over what it does, each single deed being typed.

## Main definitions

* `Deed`, `Deed.run` — what a host program does, and the objects that it comes by.
* `World`, `World.Reachable` — the heap with the objects that a host program has.

## Main results

* `Deed.typed_run` — one deed.
* `World.Reachable.sound` — any number of them.
* `World.consistency_spec` — reachable objects are consistent, and no operation comes upon a value
  of another type.
-/

namespace ChainScript.Script

variable {U : Universe}

open Run

/-! ### Deeds -/

/-- What a host program does.  A cell is a variable of the program, or the cell of an object. -/
inductive Deed (U : Universe)
  /-- A variable comes to hold a value. -/
  | declare (v : Value U)
  /-- A variable is assigned a value of its type. -/
  | assign (cell : Loc) (v : Value U)
  | object (r : Registry U) (v : Value U)
  | share (r : Registry U) (v : Value U)
  | reference (r : Registry U) (cell : Loc)
  | bind (r : Registry U) (cell : Loc) (policy : Policy)
  | construct (r : Registry U) (k : Kind U) (args : List (Object U))
  | constructNamed (r : Registry U) (name : String) (args : List (Object U))
  | reach (o : Object U) (how : Reaching)
  | derive (o : Object U) (how : Deriving U)
  | call (o : Object U) (name : String) (args : List (Object U))
  | set (o : Object U) (name : String) (value : Object U) (converted : Bool)
  | items (o : Object U)
  /-- An iteration comes to an item. -/
  | item (o : Object U) (n : Nat)
  /-- A visit begins. -/
  | enter (o : Object U) (k : Kind U) (access : Access)
  /-- The visited value is assigned another one of its type. -/
  | replace (o : Object U) (x : o.kind.Carrier)
  /-- A visit ends. -/
  | leave (o : Object U) (access : Access)
  | cast (o : Object U) (k : Kind U)
  | convertedCast (o : Object U) (k : Kind U)
  | intoInner (o : Object U) (k : Kind U)
  | drop (o : Object U)

namespace Deed

/-- The objects that a deed uses. -/
def objects : Deed U → List (Object U)
  | declare _ | assign .. | object .. | share .. | reference .. | bind .. => []
  | construct _ _ args | constructNamed _ _ args => args
  | reach o _ | derive o _ | items o | item o _ | enter o .. | replace o _ | leave o _ | cast o _
  | convertedCast o _ | intoInner o _ | drop o => [o]
  | call o _ args => o :: args
  | set o _ value _ => [o, value]

/-- The registry that a deed uses, apart from those of its objects. -/
def registry? : Deed U → Option (Registry U)
  | object r _ | share r _ | reference r _ | bind r .. | construct r .. | constructNamed r .. =>
      some r
  | _ => none

/-- Does something with the value in a cell that is there. -/
def withCell (cell : Loc) (act : Value U → Run U (List (Object U))) : Run U (List (Object U)) := do
  match (← get).value? cell with
  | some v => act v
  | none => return []

/-- Does a deed; the result is the objects that the program comes by. -/
def run : Deed U → Run U (List (Object U))
  | declare v => do
      discard (Run.alloc v)
      return []
  | assign cell v => withCell cell fun old => do
      if old.kind = v.kind then modify (·.setValue cell v)
      return []
  | object r v => List.singleton <$> r.object v
  | share r v => List.singleton <$> r.share v
  | reference r cell => withCell cell fun v => List.singleton <$> r.reference cell v.kind
  | bind r cell policy => withCell cell fun v => List.singleton <$> r.bind cell v policy
  | construct r k args => List.singleton <$> r.construct k args
  | constructNamed r name args => List.singleton <$> r.constructNamed name args
  | reach o how => List.singleton <$> how.run o
  | derive o how => Option.toList <$> how.run o
  | call o name args => List.singleton <$> o.call name args
  | set o name value converted => do
      if converted then o.setConverted name value else o.set name value
      return []
  | items o => o.items
  | item o n => do
      let e ← o.elements
      match e.values[n]? with
      | some v => List.singleton <$> e.object v
      | none => return []
  | enter o k access => do
      discard (o.visit k access)
      return []
  | replace o x => do
      o.replace ⟨o.kind, x⟩
      return []
  | leave o access => do
      modify (o.leave access)
      return []
  | cast o k => do
      discard (o.cast k)
      return []
  | convertedCast o k => do
      discard (o.convertedCast k)
      return []
  | intoInner o k => do
      discard (o.intoInner k)
      return []
  | drop o => do
      o.release
      return []

end Deed

/-! ### Worlds -/

/-- The objects of a list are sound. -/
def AllSound (h : Heap U) (os : List (Object U)) : Prop := ∀ o ∈ os, o.Sound h

/-- The heap, and the objects that a host program has come by. -/
structure World (U : Universe) where
  heap : Heap U := {}
  objects : List (Object U) := []

namespace World

/-- The world after a deed.  One that fails yields no object, but what it changed stays
changed. -/
def after (w : World U) (d : Deed U) : World U where
  heap := (d.run.run w.heap).2
  objects := w.objects ++ (d.run.run w.heap).1.toOption.getD []

/-- The deed uses objects that the program has, and a registry that changes make. -/
structure Permits (w : World U) (d : Deed U) : Prop where
  objects : ∀ o ∈ d.objects, o ∈ w.objects
  registry : ∀ r ∈ d.registry?, r.Built

/-- The worlds that a host program comes to. -/
inductive Reachable : World U → Prop
  | start : Reachable {}
  | after {w : World U} (d : Deed U) : w.Reachable → w.Permits d → Reachable (w.after d)

/-- Every object is sound. -/
def Sound (w : World U) : Prop := AllSound w.heap w.objects

end World

/-! ### One deed -/

section Single

variable {h : Heap U}

theorem typed_singleton {m : Run U (Object U)} (hm : Typed h m fun h' o => o.Sound h') :
    Typed h (List.singleton <$> m) AllSound :=
  hm.map fun _ _ _ ho _ hr => List.mem_singleton.1 hr ▸ ho

theorem typed_nil : Typed h (pure [] : Run U (List (Object U))) AllSound :=
  typed_pure (List.forall_mem_nil _)

/-- A deed by which the program comes by no object. -/
theorem typed_nothing {α : Type} {m : Run U α} {Q : Heap U → α → Prop} (hm : Typed h m Q) :
    Typed h (do discard m; return []) AllSound :=
  (hm.map fun _ _ _ _ => trivial : Typed h (discard m) fun _ _ => True).bind
    fun _ _ _ _ => typed_nil

theorem Deed.typed_withCell {cell : Loc} {act : Value U → Run U (List (Object U))}
    (hact : ∀ h' v, h'.value? cell = some v → Typed h' (act v) AllSound) :
    Typed h (withCell cell act) AllSound := by
  refine typed_get.bind fun h₁ h' _ hget => ?_
  subst hget
  split
  · next v hv => exact hact h₁ v hv
  · exact typed_nil

/-- A cell keeps its kind where a value of that kind is assigned to it. -/
theorem Deed.typed_assign {cell : Loc} {old v : Value U} (hold : h.value? cell = some old) :
    Typed h (do
      if old.kind = v.kind then modify (·.setValue cell v)
      return []) AllSound := by
  split
  · next hkind =>
    refine (typed_modify (Heap.keepsKinds_modify fun c hc => ?_)).bind fun _ _ _ _ => typed_nil
    rw [Heap.value?, hc] at hold
    exact hkind.symm.trans (congrArg Value.kind (Option.some.inj hold).symm)
  · exact typed_nil

theorem Object.Sound.typed_reach {o : Object U} (S : o.Sound h) (how : Reaching) :
    Typed h (how.run o) fun h' r => r.Sound h' := by
  cases how with
  | path names => exact S.typed_get names
  | dotted names => exact S.typed_getPath names
  | reference name => exact S.typed_callRef name

theorem Object.Sound.typed_derive {o : Object U} (S : o.Sound h) (how : Deriving U) :
    Typed h (how.run o) fun h' r? => ∀ r ∈ r?, r.Sound h' := by
  cases how with
  | convertTo k =>
      exact (S.typed_convertTo k).map fun _ _ _ hr _ hr' => Option.some.inj hr' ▸ hr
  | copy => exact S.typed_copy.map fun _ _ _ hr _ hr' => Option.some.inj hr' ▸ hr
  | shareHandle => exact typed_pure fun _ hr => S.sound_shareHandle hr

theorem Deed.typed_run {d : Deed U} (hobjects : ∀ o ∈ d.objects, o.Sound h)
    (hregistry : ∀ r ∈ d.registry?, r.Built) : Typed h d.run AllSound := by
  cases d with
  | declare v => exact typed_nothing (typed_alloc v)
  | assign cell v => exact typed_withCell fun _ _ hold => typed_assign hold
  | object r v => exact typed_singleton ((hregistry r rfl).typed_wrapNew .copy v)
  | share r v => exact typed_singleton ((hregistry r rfl).typed_wrapNew .share v)
  | reference r cell =>
      exact typed_withCell fun _ _ hv => typed_singleton ((hregistry r rfl).typed_reference hv)
  | bind r cell policy =>
      exact typed_withCell fun _ _ hv => typed_singleton ((hregistry r rfl).typed_bind hv policy)
  | construct r k args =>
      exact typed_singleton ((hregistry r rfl).typed_construct k hobjects)
  | constructNamed r name args =>
      exact typed_singleton ((hregistry r rfl).typed_constructNamed name hobjects)
  | reach o how => exact typed_singleton ((hobjects o (.head _)).typed_reach how)
  | derive o how =>
      refine ((hobjects o (.head _)).typed_derive how).map fun r? _ _ hr? r hr => ?_
      exact hr? r (Option.mem_toList.1 hr)
  | call o name args =>
      obtain ⟨ho, hargs⟩ := List.forall_mem_cons.1 hobjects
      exact typed_singleton (ho.typed_call name hargs)
  | set o name value converted =>
      have ho := hobjects o (.head _)
      have hvalue := hobjects value (.tail _ (.head _))
      cases converted with
      | false => exact (ho.typed_set name hvalue).bind fun _ _ _ _ => typed_nil
      | true => exact (ho.typed_setConverted name hvalue).bind fun _ _ _ _ => typed_nil
  | items o => exact (hobjects o (.head _)).typed_items
  | item o n =>
      have ho := hobjects o (.head _)
      refine ho.typed_elements.bind fun e h₁ K he => ?_
      split
      · next v hv =>
        exact typed_singleton (ho.types.typed_made (he v (List.mem_of_getElem? hv)) e.policy)
      · exact typed_nil
  | enter o k access => exact typed_nothing ((hobjects o (.head _)).typed_visit k access)
  | replace o x =>
      exact ((hobjects o (.head _)).typed_replace x).bind fun _ _ _ _ => typed_nil
  | leave o access =>
      exact (typed_modify (o.keepsKinds_leave access h)).bind fun _ _ _ _ => typed_nil
  | cast o k => exact typed_nothing ((hobjects o (.head _)).typed_cast k)
  | convertedCast o k => exact typed_nothing ((hobjects o (.head _)).typed_convertedCast k)
  | intoInner o k => exact typed_nothing ((hobjects o (.head _)).typed_intoInner k)
  | drop o => exact o.typed_release.bind fun _ _ _ _ => typed_nil

end Single

/-! ### Any number of deeds -/

namespace World

variable {w : World U} {d : Deed U}

/-- **A deed keeps objects sound, and those that it yields are sound.** -/
theorem Sound.after (W : w.Sound) (hd : w.Permits d) : (w.after d).Sound := by
  have hrun : Typed w.heap d.run AllSound :=
    Deed.typed_run (fun o ho => W o (hd.objects o ho)) hd.registry
  intro o ho
  rcases List.mem_append.1 ho with hold | hnew
  · exact (W o hold).mono hrun.keeps
  · cases hresult : (d.run.run w.heap).1 with
    | ok os =>
        rw [hresult] at hnew
        exact hrun.ok os hresult o hnew
    | error e =>
        rw [hresult] at hnew
        cases hnew

/-- However many deeds are done, the objects are sound. -/
theorem Reachable.sound (hw : w.Reachable) : w.Sound := by
  induction hw with
  | start => exact List.forall_mem_nil _
  | after d _ hd ih => exact ih.after hd

/-- **Reachable objects are consistent.**  An object that a host program has come by carries a
registry that changes of a catalog make; the registry finds the object's descriptor by its kind,
and owns it; and the object's place holds a value of that kind.  So the check for consistency
succeeds, and nothing that the program may go on to do fails because of a value of another
type. -/
theorem consistency_spec (hw : w.Reachable) :
    (∀ o ∈ w.objects,
      (∃ c : Catalog U, c.Reachable ∧ c.toRegistry = o.types ∧ c.find? o.kind = some o.desc) ∧
      o.types.find? o.kind = some o.desc ∧ o.types.indexOf? o.kind = some o.index ∧
      o.desc.owner = o.types.id ∧
      (∃ v, w.heap.read? o.holder.place = some v ∧ v.kind = o.kind) ∧
      o.isConsistent w.heap = true) ∧
    ∀ d, w.Permits d → ∀ type, (d.run.run w.heap).1 ≠ .error (.foreignValue type) := by
  constructor
  · intro o ho
    have S := hw.sound o ho
    have hindex : o.types.indexOf? o.kind = some o.index := S.types.indexOf?_kind o.index
    have hfind : o.types.find? o.kind = some o.desc := by
      rw [Registry.find?, hindex]
      rfl
    obtain ⟨c, hc, htypes⟩ := S.types
    refine ⟨⟨c, hc, htypes, ?_⟩, hfind, hindex, S.types.owner_entry o.index,
      S.holds.exists_read?, S.isConsistent⟩
    rw [← hc.indexed.find?_eq, htypes, hfind]
  · intro d hd type hfail
    have hrun := Deed.typed_run (fun o ho => hw.sound o (hd.objects o ho)) hd.registry
    exact Bool.noConfusion (hrun.no_foreign _ hfail)

/-- A text is shared and copied; whatever follows, neither is taken for anything else. -/
theorem consistency_spec_text :
    ∃ w : World Gallery.world, w.Reachable ∧ w.objects.map (·.typeName) = ["text", "text"] ∧
      (∀ o ∈ w.objects, o.isConsistent w.heap = true) ∧
      ∀ d, w.Permits d → ∀ type, (d.run.run w.heap).1 ≠ .error (.foreignValue type) := by
  let c : Catalog Gallery.world := ((Change.register .string "text" id).run (.empty 1)).1
  have hc : c.Reachable := .change _ (.empty 1) nofun
  let text : Value Gallery.world := ⟨.string, "tea"⟩
  let o : Object Gallery.world := ⟨c.toRegistry, ⟨0, by decide⟩, .shared 0⟩
  let w : World Gallery.world := ⟨(({} : Heap Gallery.world).alloc text).2, [o]⟩
  have hshare : World.after {} (.share c.toRegistry text) = w := by
    have hindex : c.toRegistry.indexOf? .string = some o.index :=
      (hc.indexed.indexOf?_eq _).trans rfl
    simp only [World.after, Deed.run, Registry.share, Registry.wrapNew, text, hindex]
    rfl
  have hbuilt : ∀ r ∈ some c.toRegistry, r.Built := fun r hr => ⟨c, hc, Option.some.inj hr⟩
  have hw : w.Reachable := hshare ▸ .after _ .start ⟨List.forall_mem_nil _, hbuilt⟩
  let w' : World Gallery.world := w.after (.derive o .copy)
  have hw' : w'.Reachable := .after _ hw ⟨fun _ ho => ho, by simp [Deed.registry?]⟩
  obtain ⟨hconsistent, hforeign⟩ := consistency_spec hw'
  exact ⟨w', hw', rfl, fun o ho => (hconsistent o ho).2.2.2.2.2, hforeign⟩

end World

end ChainScript.Script
