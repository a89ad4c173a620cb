import Mathlib.Data.List.Nodup

/-!
# Writes to cells of their own

A state is read cell by cell, and a write acts on the cell it is for alone. Writes for different
cells then end with each cell as its own write left it, in whatever order they came.
-/

namespace ChannelManager

variable {σ ω κ β : Type}

/-- A write changes its own cell by what the cell held, and no other. -/
structure ActsOnCells (step : σ → ω → σ) (cell : ω → κ) (read : σ → κ → β) (write : ω → β → β) :
    Prop where
  own : ∀ s w, read (step s w) (cell w) = write w (read s (cell w))
  other : ∀ s w k, k ≠ cell w → read (step s w) k = read s k

namespace ActsOnCells

variable {step : σ → ω → σ} {cell : ω → κ} {read : σ → κ → β} {write : ω → β → β}

/-- A cell that no write is for stays as it was. -/
theorem foldl_other (h : ActsOnCells step cell read write) {k : κ} {ws : List ω}
    (hk : ∀ w ∈ ws, k ≠ cell w) (s : σ) : read (ws.foldl step s) k = read s k := by
  induction ws generalizing s with
  | nil => rfl
  | cons w ws ih =>
    rw [List.foldl_cons, ih fun v hv => hk v (List.mem_cons_of_mem _ hv)]
    exact h.other s w k (hk w (List.mem_cons_self ..))

/-- A cell that one write is for ends as that write leaves it. -/
theorem foldl_own (h : ActsOnCells step cell read write) {w : ω} {ws : List ω}
    (hcells : (ws.map cell).Nodup) (hw : w ∈ ws) (s : σ) :
    read (ws.foldl step s) (cell w) = write w (read s (cell w)) := by
  induction ws generalizing s with
  | nil => cases hw
  | cons v ws ih =>
    obtain ⟨hnot, hrest⟩ := List.nodup_cons.mp hcells
    rw [List.foldl_cons]
    rcases List.mem_cons.mp hw with rfl | hw
    · have hothers : ∀ u ∈ ws, cell w ≠ cell u := fun u hu heq =>
        hnot (List.mem_map.mpr ⟨u, hu, heq.symm⟩)
      rw [h.foldl_other hothers, h.own]
    · have hne : cell w ≠ cell v := fun heq => hnot (heq ▸ List.mem_map_of_mem hw)
      rw [ih hrest hw, h.other s v _ hne]

end ActsOnCells

end ChannelManager
