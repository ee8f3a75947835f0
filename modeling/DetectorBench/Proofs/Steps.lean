/-!
# Steps that can fail

Readers and decoders are chains of steps each of which can fail. A chain that
came to an end came through each of its steps, which is how such a chain is
taken apart from its front.
-/

namespace DetectorBench

theorem exists_of_bind_eq_ok {ε α β : Type} {x : Except ε α}
    {f : α → Except ε β} {b : β} (h : x >>= f = .ok b) :
    ∃ a, x = .ok a ∧ f a = .ok b := by
  cases x with
  | error e => cases h
  | ok a => exact ⟨a, rfl, h⟩

end DetectorBench
