import ChainScript.Proofs.Format.Plain
import ChainScript.Proofs.Object.Seen
import ChainScript.Proofs.Session.Through

/-!
# Paths in one go and in two

A path may be cut anywhere.  In one go the objects in the middle are used up: what an object of its
own holds by reference is copied out of it.  In two, the object in the middle stays, and the rest of
the path is read from a reference to it, which is narrowed instead.  The last objects may hold their
values in different ways, but they have the same type and the same value, because both are what the
path shows; and where one fails, the other fails with the same error.

## Main definitions

* `Object.SameEnd` — two runs end in the same error, or in objects with the same type and value.
* `Object.Spells` — the names between the dots of a text.

## Main results

* `Object.sameEnd_get` — a path in one go and in two.
* `Object.path_spec` — paths compose, and texts are read as the names between their dots.
-/

namespace ChainScript.Script

variable {U : Universe}

open Run

namespace Object

variable {o : Object U} {h h' : Heap U}

/-- The two runs end in the same error, or in objects of one type that have the same value. -/
inductive SameEnd : Except (ScriptError U) (Object U) × Heap U →
    Except (ScriptError U) (Object U) × Heap U → Prop
  | error (e : ScriptError U) (h h' : Heap U) : SameEnd (.error e, h) (.error e, h')
  | ok {types : Registry U} {i : Fin types.entries.size} {holder holder' : Holder U}
      {h h' : Heap U} {v : Value U} (hv : copied? ⟨types, i, holder⟩ h = some v)
      (hv' : copied? ⟨types, i, holder'⟩ h' = some v) :
      SameEnd (.ok ⟨types, i, holder⟩, h) (.ok ⟨types, i, holder'⟩, h')

section Shows

variable {types : Registry U} {m m' : Run U (Object U)}
  {seen : Except (ScriptError U) (Fin types.entries.size × Value U)}

/-- What shows the same ends in the same way. -/
theorem Shows.sameEnd (H : Shows types h m seen) (H' : Shows types h' m' seen) :
    SameEnd (m.run h) (m'.run h') := by
  cases seen with
  | error e =>
      obtain ⟨h₁, hrun, -⟩ := H
      obtain ⟨h₂, hrun', -⟩ := H'
      rw [hrun, hrun']
      exact .error e h₁ h₂
  | ok found =>
      obtain ⟨holder, h₁, hrun, -, R, -⟩ := H
      obtain ⟨holder', h₂, hrun', -, R', -⟩ := H'
      rw [hrun, hrun']
      exact .ok R.copied? R'.copied?

theorem Shows.keepsValues (H : Shows types h m seen) : h.KeepsValues (m.run h).2 := by
  cases seen with
  | error e =>
      obtain ⟨h₁, hrun, K⟩ := H
      rwa [hrun]
  | ok found =>
      obtain ⟨holder, h₁, hrun, K, -⟩ := H
      rwa [hrun]

end Shows

/-! ### Two parts of a path -/

/-- Only the first half of a path is read from a reference to the object. -/
theorem get_append (o : Object U) {p : List String} (hp : p ≠ []) (q : List String) :
    o.get (p ++ q) = o.get p >>= (·.readPath q) := by
  rw [get_of_ne_nil o (List.append_ne_nil_of_left_ne_nil hp q), get_of_ne_nil o hp, bind_assoc]
  exact bind_congr fun lent => lent.readPath_append p q

/-- **A path in one go and in two.** -/
theorem sameEnd_get (hlawful : o.types.Lawful) (L : LawfulPath o.holder.place.path)
    {p q : List String} (hp : p ≠ []) (hq : q ≠ []) (h : Heap U) :
    SameEnd ((o.get (p ++ q)).run h) ((do (← o.get p).get q).run h) ∧
      h.KeepsValues ((o.get (p ++ q)).run h).2 ∧
      h.KeepsValues ((do (← o.get p).get q : Run U (Object U)).run h).2 := by
  rw [get_append o hp]
  obtain ⟨seen, H⟩ := exists_shows_get hlawful L hp h
  cases seen with
  | error e =>
      obtain ⟨h₁, hrun, K⟩ := H
      rw [bind_of_error hrun, bind_of_error hrun]
      exact ⟨.error e h₁ h₁, K, K⟩
  | ok found =>
      obtain ⟨holder, h₁, hrun, K, R, L₁⟩ := H
      have hgo := R.shows_readPath hlawful L₁ q
      have hstop := R.shows_get hlawful L₁ hq
      rw [bind_of_ok hrun, bind_of_ok hrun]
      exact ⟨hgo.sameEnd hstop, K.trans hgo.keepsValues, K.trans hstop.keepsValues⟩

/-! ### Texts -/

/-- The names hold no dots and make the text with dots between them. -/
structure Spells (names : List String) (text : String) : Prop where
  ne_nil : names ≠ []
  dotless : ∀ name ∈ names, '.' ∉ name.toList
  eq : ".".intercalate names = text

theorem Spells.splitAt {names : List String} {text : String} (S : Spells names text) :
    Text.splitAt '.' text = names := by
  rw [← S.eq, Text.splitAt_intercalate rfl S.ne_nil S.dotless]

/-- A text spells the names that it has between its dots. -/
theorem spells_splitAt (text : String) : Spells (Text.splitAt '.' text) text where
  ne_nil := mt List.map_eq_nil_iff.1 (Text.piecesBy_ne_nil _ _)
  dotless := by
    intro name hname hdot
    obtain ⟨piece, hpiece, rfl⟩ := List.mem_map.1 hname
    rw [String.toList_ofList] at hdot
    exact absurd (Text.of_mem_piecesBy hpiece hdot).2 (by decide)
  eq := Text.intercalate_splitAt rfl text

/-- **Paths compose, and a text stands for a path.**  A path yields what its second part yields
from what its first part yields: the same error, or an object of the same type with the same value.
No value is changed.  A text that is not empty is read as the names that it spells, empty ones
included; every text spells some. -/
theorem path_spec (o : Object U) (hlawful : o.types.Lawful)
    (L : LawfulPath o.holder.place.path) :
    (∀ p q : List String, p ≠ [] → q ≠ [] → ∀ h : Heap U,
      SameEnd ((o.get (p ++ q)).run h) ((do (← o.get p).get q).run h) ∧
      h.KeepsValues ((o.get (p ++ q)).run h).2 ∧
      h.KeepsValues ((do (← o.get p).get q : Run U (Object U)).run h).2) ∧
    ∀ text, text ≠ "" → (∃ names, Spells names text) ∧
      ∀ names, Spells names text → o.getPath text = o.get names := by
  refine ⟨fun p q hp hq h => sameEnd_get hlawful L hp hq h, fun text htext => ?_⟩
  refine ⟨⟨_, spells_splitAt text⟩, fun names S => ?_⟩
  rw [getPath, if_neg (mt String.isEmpty_iff.1 htext), S.splitAt]

/-! ### A rectangle of its own -/

/-- The corner of a rectangle, by copy. -/
def cornerGetter : Getter (U := Gallery.world) (.host .rect) :=
  .field (.host .point) .copy Gallery.Rect.originPart

/-- Rectangles with their corner by copy and points with a coordinate by reference. -/
def cornerCopies : Registry Gallery.world where
  id := 0
  entries := #[⟨.host .rect, "rect", 0, { getters := Slots.empty.put "origin" cornerGetter }⟩,
    ⟨.host .point, "point", 0, { getters := Slots.empty.put "x" Reaching.xGetter }⟩,
    ⟨.int, "int", 0, {}⟩]

/-- The rectangle in the first cell. -/
def frame : Object Gallery.world := ⟨cornerCopies, ⟨0, by decide⟩, .owned 0⟩

theorem lawful_cornerCopies : cornerCopies.Lawful where
  field := by
    intro i name ret policy lens hgetter
    match i with
    | ⟨0, _⟩ => cases Reaching.get?_put_empty hgetter; exact Gallery.Rect.lawful_originPart
    | ⟨1, _⟩ => cases Reaching.get?_put_empty hgetter; exact Gallery.Point.lawful_xPart
    | ⟨2, _⟩ => cases hgetter
  reference := by
    intro i name f hf
    match i with
    | ⟨0, _⟩ | ⟨1, _⟩ | ⟨2, _⟩ => cases hf

/-- The coordinate of the corner is a number of its own where the copy of the corner is used up,
and a part of the copy where that stays.  The two have the same value. -/
theorem path_spec_frame :
    let h : Heap Gallery.world := ⟨#[⟨⟨.host .rect, ⟨⟨1, 2⟩, 3, 4⟩⟩, 0, false⟩]⟩
    let go := (frame.getPath "origin.x").run h
    let stop := (do (← frame.get ["origin"]).get ["x"] : Run _ (Object _)).run h
    go.1.map mode = .ok .owned ∧ stop.1.map mode = .ok .borrowed ∧ SameEnd go stop := by
  intro h
  obtain ⟨hcut, htexts⟩ := path_spec frame lawful_cornerCopies (List.forall_mem_nil _)
  have hpath : frame.getPath "origin.x" = frame.get (["origin"] ++ ["x"]) :=
    (htexts "origin.x" (by decide)).2 _ ⟨by decide, by decide, by decide⟩
  obtain ⟨hsame, -⟩ := hcut ["origin"] ["x"] (by decide) (by decide) h
  rw [hpath]
  exact ⟨by with_unfolding_all rfl, by with_unfolding_all rfl, hsame⟩

end Object

end ChainScript.Script
