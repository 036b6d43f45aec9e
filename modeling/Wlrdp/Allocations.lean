namespace Wlrdp
set_option autoImplicit true

/-- An element of an allocation. `written` says whether the program has stored it, or the memory
happened to contain it. -/
structure Cell (α : Type) where
  value : α
  written : Bool
deriving DecidableEq

namespace Cell

/-- Elements as the program stores them. -/
def ofValues (vs : List α) : List (Cell α) := vs.map (⟨·, true⟩)

end Cell

/-- `realloc` to a size: what fits is kept, and the rest is what the memory contains. -/
def reallocate (mem : List (Cell α)) (size : Nat) (fresh : Nat → α) : List (Cell α) :=
  mem.take size ++ (List.range (size - mem.length)).map fun i => ⟨fresh i, false⟩

/-- Elements are stored from an offset on. -/
def storeAt (mem : List (Cell α)) (offset : Nat) (vs : List α) : List (Cell α) :=
  mem.take offset ++ Cell.ofValues vs ++ mem.drop (offset + vs.length)

/-- An allocation that starts with the values and in which nothing was stored behind them. -/
structure Holds (mem : List (Cell α)) (vs : List α) : Prop where
  front : mem.take vs.length = Cell.ofValues vs
  back : ∀ c ∈ mem.drop vs.length, c.written = false

variable {mem : List (Cell α)} {vs ws : List α}

theorem reallocate_length (mem : List (Cell α)) (size : Nat) (fresh : Nat → α) :
    (reallocate mem size fresh).length = size := by
  rw [reallocate, List.length_append, List.length_take, List.length_map, List.length_range]
  omega

theorem reallocate_of_length (h : mem.length = size) (fresh : Nat → α) :
    reallocate mem size fresh = mem := by
  rw [reallocate, h, Nat.sub_self, List.take_of_length_le (Nat.le_of_eq h)]
  exact List.append_nil mem

theorem ofValues_length (vs : List α) : (Cell.ofValues vs).length = vs.length := List.length_map ..

theorem storeAt_length (h : offset + vs.length ≤ mem.length) :
    (storeAt mem offset vs).length = mem.length := by
  rw [storeAt, List.length_append, List.length_append, List.length_take, List.length_drop,
    ofValues_length]
  omega

namespace Holds

theorem length_le (h : Holds mem vs) : vs.length ≤ mem.length := by
  have hlength := congrArg List.length h.front
  rw [List.length_take, ofValues_length] at hlength
  omega

/-- Nothing is stored in no memory. -/
theorem empty : Holds ([] : List (Cell α)) [] := ⟨rfl, nofun⟩

theorem reallocate (h : Holds mem vs) (hsize : mem.length ≤ size) (fresh : Nat → α) :
    Holds (reallocate mem size fresh) vs := by
  have hle := h.length_le
  rw [Wlrdp.reallocate, List.take_of_length_le hsize]
  constructor
  · rw [List.take_append_of_le_length hle]
    exact h.front
  · rw [List.drop_append_of_le_length hle]
    intro c hc
    rcases List.mem_append.1 hc with hc | hc
    · exact h.back c hc
    · obtain ⟨i, _, rfl⟩ := List.mem_map.1 hc
      rfl

/-- What is stored right behind the values joins them. -/
theorem storeAt (h : Holds mem vs) : Holds (storeAt mem vs.length ws) (vs ++ ws) := by
  have hfront : (Cell.ofValues vs ++ Cell.ofValues ws).length = (vs ++ ws).length := by
    rw [List.length_append, ofValues_length, ofValues_length, List.length_append]
  rw [Wlrdp.storeAt, h.front]
  constructor
  · rw [List.take_left' hfront, Cell.ofValues, Cell.ofValues, Cell.ofValues, List.map_append]
  · rw [List.drop_left' hfront]
    intro c hc
    apply h.back c
    rw [← List.drop_drop] at hc
    exact List.mem_of_mem_drop hc

/-- The element behind them, if there is one. -/
theorem getElem?_length (h : Holds mem vs) (hc : mem[vs.length]? = some c) :
    c.written = false := by
  apply h.back c
  have hhead : (mem.drop vs.length)[0]? = some c := by
    rw [List.getElem?_drop]
    exact hc
  exact List.mem_of_getElem? hhead

end Holds
end Wlrdp
