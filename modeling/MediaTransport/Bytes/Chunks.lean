/-!
# Chunks

A byte list cut into chunks of one size, the last of which may be shorter.
-/

namespace MediaTransport.Bytes

/-- The chunks of a list, put in front of those cut off earlier, newest first.
A size of zero cuts nothing. -/
def chunksOnto (size : Nat) (done : List (List α)) (items : List α) : List (List α) :=
  if _h : size = 0 ∨ items = [] then done.reverse
  else chunksOnto size (items.take size :: done) (items.drop size)
termination_by items.length
decreasing_by
  obtain ⟨hs, hi⟩ := not_or.mp _h
  have := List.length_pos_iff.mpr hi
  simp only [List.length_drop]
  omega

/-- The chunks of a list, in order.  None is empty. -/
def chunks (size : Nat) (items : List α) : List (List α) :=
  chunksOnto size [] items

end MediaTransport.Bytes
