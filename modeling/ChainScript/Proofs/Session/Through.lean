import ChainScript.Gallery.Universe
import ChainScript.Proofs.Object.Reach
import ChainScript.Proofs.Session.Onward

/-!
# Writing through references

What is done through a reference that was reached from an object replaces the part of the
object's value that the reference selects and nothing else.  What is done with any other object
that was reached, or with what is reached from that, does not come back to the first.

## Main definitions

* `Reaching.route?` — the steps to what is reached, if it is reached by reference all the way.

## Main results

* `Reaching.write_through` — what operations through a reached object do to the first one.
-/

namespace ChainScript.Script

variable {U : Universe}

open Zone Run

/-- The steps to what is reached, if it is reached by reference all the way. -/
def Reaching.route? (o : Object U) : Reaching → Option (List (Step U))
  | .path names => o.types.route? o.index names
  | .dotted names => o.types.route? o.index (Text.splitAt '.' names)
  | .reference name =>
      (o.members.references.get? name).map fun f => [⟨o.kind, f.ret, f.lens⟩]

namespace Reaching

variable {o r : Object U} {h h₁ : Heap U}

/-- What is reached from an object is a reference along the route from a reference to its value,
or an object of its own. -/
theorem run_eq_ok (how : Reaching) (hlawful : o.types.Lawful)
    (L : LawfulPath o.holder.place.path) (hrun : (how.run o).run h = (.ok r, h₁)) :
    (∀ steps, how.route? o = some steps →
      ∃ lent, o.reborrow.run h = (.ok lent, h₁) ∧ o.Lent lent steps h₁ r) ∧
    (how.route? o = none → r.Detached h h₁) := by
  have hget : ∀ names, (o.get names).run h = (.ok r, h₁) →
      (∀ steps, o.types.route? o.index names = some steps →
        ∃ lent, o.reborrow.run h = (.ok lent, h₁) ∧ o.Lent lent steps h₁ r) ∧
      (o.types.route? o.index names = none → r.Detached h h₁) := by
    intro names hrun
    rw [Object.get] at hrun
    split at hrun
    · obtain ⟨_, _, hthrow, -⟩ := bind_eq_ok hrun
      exact absurd hthrow not_throw_eq_ok
    · next hnames =>
      obtain ⟨lent, h₀, hlent, hpath⟩ := bind_eq_ok hrun
      obtain ⟨hroute, hnone⟩ := Object.reborrow_readPath_eq_ok hlawful L
        (by simpa using hnames) hlent hpath
      refine ⟨fun steps hsteps => ?_, hnone⟩
      obtain ⟨hreached, rfl⟩ := hroute steps hsteps
      exact ⟨lent, hlent, hreached⟩
  cases how with
  | path names => exact hget names hrun
  | dotted names =>
      change (o.getPath names).run h = _ at hrun
      rw [Object.getPath] at hrun
      split at hrun
      · exact absurd hrun not_throw_eq_ok
      · exact hget _ hrun
  | reference name =>
      obtain ⟨f, h₀, hmethod, hrest⟩ := bind_eq_ok hrun
      obtain ⟨hf, rfl⟩ := (finds_orThrow _ _).eq_ok hmethod
      obtain ⟨lent, h₂, hlent, hpassOn⟩ := bind_eq_ok hrest
      obtain ⟨h₃, hnarrow, hpassed⟩ := Object.passOn_eq_ok hpassOn
      obtain ⟨⟨guarded, rfl⟩, -⟩ := Object.reborrow_eq_ok hlent
      have hlens := hlawful.reference o.index name f hf
      obtain ⟨⟨hpart, i, -, rfl⟩, rfl⟩ := Object.narrow_eq_ok
        (o := o.withHolder (.view o.holder.place guarded)) hlens L hnarrow
      obtain rfl : h₁ = h₃ := hpassed.trans (if_pos rfl)
      have hroute : Reaching.route? o (.reference name) = some [⟨o.kind, f.ret, f.lens⟩] := by
        rw [Reaching.route?, hf]
        rfl
      rw [hroute]
      refine ⟨fun steps hsteps => ?_, fun hsteps => absurd hsteps (Option.some_ne_none _)⟩
      obtain rfl := Option.some.inj hsteps
      exact ⟨_, hlent, List.forall_mem_singleton.2 hlens, guarded, rfl, rfl, hpart⟩

/-- What is reached by reference is written through, whatever is done with it. -/
theorem write_through_of_route {how : Reaching} {steps : List (Step U)}
    (hlawful : o.types.Lawful) (L : LawfulPath o.holder.place.path)
    (hrun : (how.run o).run h = (.ok r, h₁)) (hroute : how.route? o = some steps)
    {h₂ : Heap U} (hallowed : ∀ (z : Zone U), z.fresh = h₁.cells.size → z.Covers r.holder →
      z.Allows h₁ h₂) :
    ∃ old part new, o.holder.read? h = some old ∧ r.holder.read? h₂ = some part ∧
      putPath? steps old part = some new ∧ o.holder.read? (r.ended h₂) = some new ∧
      (h.write o.holder.place new).Extends (r.ended h₂) := by
  obtain ⟨lent, hlent, Lsteps, guarded, hlentHolder, hr, x, hx⟩ :=
    (how.run_eq_ok hlawful L hrun).1 steps hroute
  obtain ⟨-, hsize, hread, -, hwritten, hfree⟩ := Object.reborrow_eq_ok hlent
  have Lall := L.append Lsteps
  -- All that is done through the reference is one write to the part.
  obtain ⟨v, hsame⟩ :
      ∃ v, (h₁.write ⟨o.holder.place.root, o.holder.place.path ++ steps⟩ v).SameBelow
        h₁.cells.size h₂ := by
    obtain ⟨-, hsame | ⟨p, hp, v, hsame⟩⟩ := hallowed
      (Zone.around h₁.cells.size ⟨o.holder.place.root, o.holder.place.path ++ steps⟩ Lall) rfl
      (by rw [hr]; exact .inr ⟨_, rfl, rfl, List.prefix_refl _⟩)
    · exact ⟨x, by rwa [Heap.write_self Lall hx]⟩
    · obtain rfl := Option.some.inj hp
      exact ⟨v, hsame⟩
  obtain ⟨old, part, new, hold, hput, hwrite, hnew, hpart⟩ := Heap.write_part Lall hx v
  have hroot := Heap.root_lt_of_read? hold
  rw [hwrite] at hsame
  have hended : r.ended (h₁.write o.holder.place new) = h.write o.holder.place new := by
    rw [Object.ended_eq_of_view hr hlentHolder rfl, hwritten]
  have hafter := Object.sameBelow_ended hsame r
  rw [hended, hsize] at hafter
  rw [hsize] at hroot
  refine ⟨old, part, new, ?_, ?_, hput, ?_, ?_⟩
  · exact Object.read?_of_place (by rwa [← hread]) hfree
  · rw [hr]
    exact (hsame.read?_eq (hsize ▸ hroot)).trans hpart
  · refine Object.read?_of_place ?_ fun l hl => ?_
    · rw [hafter.read?_eq hroot, ← hended, Object.read?_ended]
      exact hnew
    · have hl' : l < h.cells.size := by rwa [hl] at hroot
      rw [hafter.canWrite_eq hl', Heap.canWrite_write]
      exact hfree l hl
  · rwa [Heap.Extends, Heap.size_write]

/-- **A reference path writes through, and no other path does.**  The fields and reference
methods of the registry are lawful lenses, and so are the steps to the object's own value.

Where every attribute on the path is a field registered by reference, or the reference method is
called, the object that is reached is borrowed.  After any operations through it, and its end,
the value of the first object is its old value in which the part that the steps select is
replaced by the last value of the reference; so every handle to the value reads, and nothing
else is changed.

Otherwise the object that is reached is not borrowed, and no operation with it or with what is
reached from it changes anything that was there before. -/
theorem write_through {how : Reaching} (hlawful : o.types.Lawful)
    (L : LawfulPath o.holder.place.path) (hrun : (how.run o).run h = (.ok r, h₁)) :
    (∀ steps, how.route? o = some steps → r.mode = .borrowed ∧
      ∀ (e : Surroundings U) slots ops, Op.AllOnward ops →
        let h₂ := ((Op.runAll e (some r) ops).run ⟨h₁, slots⟩).2.heap
        ∃ old part new, o.holder.read? h = some old ∧ r.holder.read? h₂ = some part ∧
          putPath? steps old part = some new ∧
          (∀ a : Object U, a.holder = o.holder → a.holder.read? (r.ended h₂) = some new) ∧
          (h.write o.holder.place new).Extends (r.ended h₂)) ∧
    (how.route? o = none → r.mode ≠ .borrowed ∧
      ∀ (e : Surroundings U) slots ops, Op.AllOnward ops →
        h.Extends ((Op.runAll e (some r) ops).run ⟨h₁, slots⟩).2.heap) := by
  have hallowed : ∀ (z : Zone U) (e : Surroundings U) slots ops, z.fresh ≤ h₁.cells.size →
      z.Covers r.holder → Op.AllOnward ops →
      z.Allows h₁ ((Op.runAll e (some r) ops).run ⟨h₁, slots⟩).2.heap :=
    fun z e slots ops hz hcovers hops => (Op.keeps_runAll e
      (fun r' hr' => Option.some.inj hr' ▸ hcovers) ops hops ⟨h₁, slots⟩ hz).1
  constructor
  · intro steps hroute
    obtain ⟨lent, -, -, guarded, -, hr, -⟩ := (how.run_eq_ok hlawful L hrun).1 steps hroute
    refine ⟨by rw [Object.mode, hr]; rfl, fun e slots ops hops => ?_⟩
    obtain ⟨old, part, new, hold, hpart, hput, hnew, hrest⟩ :=
      write_through_of_route hlawful L hrun hroute
        fun z hz hcovers => hallowed z e slots ops hz.le hcovers hops
    exact ⟨old, part, new, hold, hpart, hput, fun a ha => ha ▸ hnew, hrest⟩
  · intro hroute
    obtain ⟨hsize, hsame, ⟨hcovers, -⟩, hview⟩ := (how.run_eq_ok hlawful L hrun).2 hroute
    refine ⟨fun hmode => ?_, fun e slots ops hops => ?_⟩
    · cases hholder : r.holder with
      | owned l | shared l => rw [Object.mode, hholder] at hmode; cases hmode
      | view p guarded => rw [hholder] at hview; cases hview
    · obtain ⟨-, hsame' | ⟨p, hp, -⟩⟩ := hallowed _ e slots ops hsize hcovers hops
      · exact hsame.trans hsame'
      · cases hp

/-! ### A shared rectangle -/

/-- The corner of a rectangle, by reference. -/
def originGetter : Getter (U := Gallery.world) (.host .rect) :=
  .field (.host .point) .wrapReference Gallery.Rect.originPart

/-- The first coordinate of a point, by reference. -/
def xGetter : Getter (U := Gallery.world) (.host .point) :=
  .field .int .wrapReference Gallery.Point.xPart

/-- Rectangles with their corner and points with a coordinate. -/
def corners : Registry Gallery.world where
  id := 0
  entries := #[⟨.host .rect, "rect", 0, { getters := Slots.empty.put "origin" originGetter }⟩,
    ⟨.host .point, "point", 0, { getters := Slots.empty.put "x" xGetter }⟩, ⟨.int, "int", 0, {}⟩]

/-- The rectangle in the first cell. -/
def rectangle : Object Gallery.world := ⟨corners, ⟨0, by decide⟩, .shared 0⟩

theorem get?_put_empty {α : Type} {name name' : String} {v w : α}
    (h : (Slots.empty.put name v).get? name' = some w) : v = w := by
  rw [Slots.get?_put] at h
  split at h
  · exact Option.some.inj h
  · cases h

theorem lawful_corners : corners.Lawful where
  field := by
    intro i name ret policy lens hgetter
    match i with
    | ⟨0, _⟩ => cases get?_put_empty hgetter; exact Gallery.Rect.lawful_originPart
    | ⟨1, _⟩ => cases get?_put_empty hgetter; exact Gallery.Point.lawful_xPart
    | ⟨2, _⟩ => cases hgetter
  reference := by
    intro i name f hf
    match i with
    | ⟨0, _⟩ | ⟨1, _⟩ | ⟨2, _⟩ => cases hf

/-- The steps to the coordinate of the corner. -/
def cornerSteps : List (Step Gallery.world) :=
  [⟨.host .rect, .host .point, Gallery.Rect.originPart⟩,
    ⟨.host .point, .int, Gallery.Point.xPart⟩]

/-- A coordinate of the corner of a shared rectangle is reached and assigned to, and the
rectangle has it in the end. -/
theorem write_through_corner :
    ∃ r h₁, (Reaching.run rectangle (.path ["origin", "x"])).run
        ⟨#[⟨⟨.host .rect, ⟨⟨1, 2⟩, 3, 4⟩⟩, 0, false⟩]⟩ = (.ok r, h₁) ∧
      rectangle.holder.read? (r.ended ((Op.runAll ⟨#[], 0⟩ (some r)
        [.visit none .int .writing (some ⟨.int, 5⟩) []]).run ⟨h₁, []⟩).2.heap) =
          some ⟨.host .rect, ⟨⟨5, 2⟩, 3, 4⟩⟩ := by
  have hrun : (Reaching.run rectangle (.path ["origin", "x"])).run
      ⟨#[⟨⟨.host .rect, ⟨⟨1, 2⟩, 3, 4⟩⟩, 0, false⟩]⟩ =
        (.ok ⟨corners, ⟨2, by decide⟩, .view ⟨0, cornerSteps⟩ true⟩,
          ⟨#[⟨⟨.host .rect, ⟨⟨1, 2⟩, 3, 4⟩⟩, 0, true⟩]⟩) := by with_unfolding_all rfl
  have hroute : Reaching.route? rectangle (.path ["origin", "x"]) = some cornerSteps := by
    with_unfolding_all rfl
  have hpath : LawfulPath rectangle.holder.place.path := List.forall_mem_nil _
  refine ⟨_, _, hrun, ?_⟩
  obtain ⟨old, part, new, hold, hpart, hput, hall, -⟩ :=
    ((write_through lawful_corners hpath hrun).1 cornerSteps hroute).2 ⟨#[], 0⟩ []
      [.visit none .int .writing (some ⟨.int, 5⟩) []] (by simp [Op.AllOnward, Op.Onward])
  obtain rfl : old = ⟨.host .rect, ⟨⟨1, 2⟩, 3, 4⟩⟩ := (Option.some.inj hold).symm
  obtain rfl : part = ⟨.int, 5⟩ := by
    refine Option.some.inj (hpart.symm.trans ?_)
    rfl
  rw [hall rectangle rfl, ← hput]
  rfl

end Reaching

end ChainScript.Script
