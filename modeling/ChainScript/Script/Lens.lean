/-!
# Lenses

A lens reaches a part of a whole: it reads the part and puts another in its place.  Reaching a
part may first have to make it, so that what is reached into is the whole as `touch` leaves it.
-/

namespace ChainScript.Script

/-- Access to a part of a whole. -/
structure Lens (s t : Type) where
  /-- The part. -/
  view : s → t
  /-- The whole with another part. -/
  put : s → t → s

namespace Lens

variable {s t : Type}

/-- The whole itself as its only part. -/
def id : Lens s s := ⟨fun o => o, fun _ v => v⟩

/-- The whole once the part has been reached.  A part that was missing has been made. -/
def touch (l : Lens s t) (o : s) : s := l.put o (l.view o)

/-- The laws of a lens: what was put is read back, putting what is there changes nothing, and
the last part put is the one that stays. -/
structure Lawful (l : Lens s t) : Prop where
  view_put : ∀ o v, l.view (l.put o v) = v
  put_view : ∀ o, l.put o (l.view o) = o
  put_put : ∀ o v w, l.put (l.put o v) w = l.put o w

/-- A lawful lens reaches its part without changing the whole. -/
theorem Lawful.touch {l : Lens s t} (h : l.Lawful) (o : s) : l.touch o = o := h.put_view o

end Lens

end ChainScript.Script
