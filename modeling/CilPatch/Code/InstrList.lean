import CilPatch.Instruction

/-!
# Instruction lists

The instructions of a method live in an arena, and their order is a list of slots of the arena.
An instruction keeps its slot for good, so a jump to it stays right wherever others are put.
-/

namespace CilPatch

/-- Instructions and the order in which they are placed. -/
structure InstrList where
  /-- All instructions, by slot. -/
  arena : Array Instruction := #[]
  /-- The placed slots, in order. -/
  order : Array Slot := #[]
  deriving DecidableEq, Inhabited

namespace InstrList

/-- The list of some instructions, in the order of their slots. -/
def ofInstructions (instructions : Array Instruction) : InstrList :=
  ⟨instructions, (Array.range instructions.size).map Slot.mk⟩

/-- How many instructions are placed. -/
def length (list : InstrList) : Nat := list.order.size

/-- The slot that the next instruction is given. -/
def next (list : InstrList) : Slot := ⟨list.arena.size⟩

/-- Gives an instruction a slot without placing it. -/
def alloc (list : InstrList) (instruction : Instruction) : InstrList :=
  { list with arena := list.arena.push instruction }

/-- Gives an instruction a slot and places it at the end. -/
def push (list : InstrList) (instruction : Instruction) : InstrList :=
  let slot := list.next
  ⟨list.arena.push instruction, list.order.push slot⟩

/-- Places slots in front of the position with an index, or at the end. -/
def insert (list : InstrList) (index : Nat) (slots : Array Slot) : InstrList :=
  { list with
    order := list.order.extract 0 index ++ slots ++ list.order.extract index list.order.size }

/-- The instruction of a slot. -/
def get? (list : InstrList) (slot : Slot) : Option Instruction := list.arena[slot.index]?

/-- The instruction of a slot; a slot that was never given out reads as one without effect. -/
def get (list : InstrList) (slot : Slot) : Instruction :=
  (list.get? slot).getD ⟨.single 0, .none⟩

/-- Changes the instruction of a slot. -/
def modify (list : InstrList) (slot : Slot) (change : Instruction → Instruction) : InstrList :=
  { list with arena := list.arena.modify slot.index change }

/-- The slot at a position. -/
def slotAt? (list : InstrList) (index : Nat) : Option Slot := list.order[index]?

/-- The instruction at a position. -/
def instructionAt? (list : InstrList) (index : Nat) : Option Instruction :=
  (list.slotAt? index).map list.get

/-- The first position of a slot. -/
def position? (list : InstrList) (slot : Slot) : Option Nat := list.order.idxOf? slot

/-- The placed instructions with their slots, in order. -/
def placed (list : InstrList) : List (Slot × Instruction) :=
  list.order.toList.map fun slot => (slot, list.get slot)

/-- Whether every placed slot was given out. -/
def isBacked (list : InstrList) : Bool := list.order.all fun slot => slot.index < list.arena.size

/-- Giving out a slot places nothing. -/
@[simp] theorem order_alloc (list : InstrList) (instruction : Instruction) :
    (list.alloc instruction).order = list.order := rfl

/-- Changing an instruction moves nothing. -/
@[simp] theorem order_modify (list : InstrList) (slot : Slot)
    (change : Instruction → Instruction) : (list.modify slot change).order = list.order := rfl

/-- Placing slots changes no instruction. -/
@[simp] theorem arena_insert (list : InstrList) (index : Nat) (slots : Array Slot) :
    (list.insert index slots).arena = list.arena := rfl

/-- The slot that was next holds the new instruction. -/
theorem get?_alloc_next (list : InstrList) (instruction : Instruction) :
    (list.alloc instruction).get? list.next = some instruction := by
  simp [get?, alloc, next]

/-- Giving out a slot leaves the others alone. -/
theorem get?_alloc_of_ne {list : InstrList} {slot : Slot} (instruction : Instruction)
    (h : slot ≠ list.next) : (list.alloc instruction).get? slot = list.get? slot := by
  have hne : slot.index ≠ list.arena.size := fun heq => h (by cases slot; simp_all [next])
  simp [get?, alloc, Array.getElem?_push, hne]

/-- Changing an instruction is seen in its slot. -/
theorem get?_modify_self (list : InstrList) (slot : Slot) (change : Instruction → Instruction) :
    (list.modify slot change).get? slot = (list.get? slot).map change := by
  simp [get?, modify, Array.getElem?_modify]

/-- Changing an instruction leaves the other slots alone. -/
theorem get?_modify_of_ne (list : InstrList) {slot other : Slot}
    (change : Instruction → Instruction) (h : other ≠ slot) :
    (list.modify slot change).get? other = list.get? other := by
  have hne : slot.index ≠ other.index := fun heq => h (by cases slot; cases other; simp_all)
  simp [get?, modify, Array.getElem?_modify, hne]

/-- An instruction that is placed once has one position. -/
theorem slotAt?_inj {list : InstrList} (hdistinct : list.order.toList.Nodup)
    {left right : Nat} {slot : Slot} (hleft : list.slotAt? left = some slot)
    (hright : list.slotAt? right = some slot) : left = right := by
  rw [slotAt?, ← Array.getElem?_toList] at hleft hright
  obtain ⟨hlt, -⟩ := List.getElem?_eq_some_iff.mp hleft
  exact (List.getElem?_inj hlt hdistinct).mp (hleft.trans hright.symm)

/-- Placed slots stand between those before the position and those from it on. -/
theorem toList_order_insert (list : InstrList) (index : Nat) (slots : Array Slot) :
    (list.insert index slots).order.toList =
      list.order.toList.take index ++ slots.toList ++ list.order.toList.drop index := by
  have hrest : (list.order.toList.drop index).take (list.order.size - index) =
      list.order.toList.drop index := List.take_of_length_le (by simp)
  simp [insert, hrest]

/-- The slots with a position are those that are placed. -/
theorem position?_isSome_iff {list : InstrList} {slot : Slot} :
    (list.position? slot).isSome ↔ slot ∈ list.order := by
  simp [position?, Array.idxOf?]

end InstrList

end CilPatch
