import Dcpu16.Proofs.Machine.Accesses

/-!
# The stack

Words that are pushed through fresh PUSH operands and popped through fresh POP operands make up a
list, the top first. `StackUse.apply` is one use of the stack in memory and `StackUse.onList` the
same use of a list. As long as no word is popped that has not been pushed, and no more words are
pushed than there are cells, both give the same answers (`StackUse.stack_lifo`): SP is below its
start by the depth of the list, the cells from SP on hold the list, and no cell changes that the
stack has not reached. The addresses may wrap around, and the cells may be those of the keyboard
window, which a pop clears.
-/
namespace Dcpu16

/-- What a program does with the stack, through an operand in one of the fields. -/
inductive StackUse
  | push (slot : Slot) (value : Word)
  | pop (slot : Slot)
  deriving DecidableEq

namespace StackUse

/-! ## Uses of the stack -/

/-- The operand of the use, with nothing captured. -/
def operand : StackUse → Operand
  | push slot _ => { mode := .push, slot }
  | pop slot => { mode := .pop, slot }

/-- The use of the stack in memory: the operand is prepared, and a word is written or read through
it. What is answered is the word that has been popped. -/
def apply (use : StackUse) (machine : Machine) : Except Fault (Option Word) × Machine :=
  match use.operand.prepare machine, use with
  | ⟨.error fault, _, machine⟩, _ => (.error fault, machine)
  | ⟨.ok (), operand, machine⟩, push _ value =>
    let access := operand.write machine value
    (access.result.map fun _ => none, access.machine)
  | ⟨.ok (), operand, machine⟩, pop _ =>
    let access := operand.read machine
    (access.result.map some, access.machine)

/-- The use of a list, whose first item is the top. -/
def onList : StackUse → List Word → Option Word × List Word
  | push _ value, stack => (none, value :: stack)
  | pop _, stack => (stack.head?, stack.tail)

/-- Uses one after the other, with what they answer. -/
def sequence {σ α : Type} (act : StackUse → σ → α × σ) : List StackUse → σ → List α × σ
  | [], state => ([], state)
  | use :: uses, state =>
    let (answer, state) := act use state
    let (answers, state) := sequence act uses state
    (answer :: answers, state)

/-- Is a word pushed? -/
def isPush : StackUse → Bool
  | push _ _ => true
  | pop _ => false

/-- How many words are pushed. -/
def pushes (uses : List StackUse) : Nat := uses.countP isPush

/-- How many words are popped. -/
def pops (uses : List StackUse) : Nat := uses.countP fun use => !use.isPush

/-- How many words remain on the stack. -/
def depth (uses : List StackUse) : Nat := pushes uses - pops uses

/-- How many words are on the stack at the moment when there are most. -/
def reach (uses : List StackUse) : Nat := (uses.inits.map depth).foldl max 0

/-- At no moment have more words been popped than pushed, and at no moment are there more words on
the stack than there are cells. -/
def Balanced (uses : List StackUse) : Prop :=
  ∀ front ∈ uses.inits, pops front ≤ pushes front ∧ pushes front ≤ pops front + 65536

instance (uses : List StackUse) : Decidable (Balanced uses) :=
  inferInstanceAs (Decidable (∀ front ∈ uses.inits, _))

/-- Uses behind others start where these have ended. -/
theorem sequence_append {σ α : Type} (act : StackUse → σ → α × σ) (front back : List StackUse)
    (state : σ) :
    sequence act (front ++ back) state =
      ((sequence act front state).1 ++ (sequence act back (sequence act front state).2).1,
        (sequence act back (sequence act front state).2).2) := by
  induction front generalizing state with
  | nil => rfl
  | cons use front ih =>
    simp only [List.cons_append, sequence, ih]

/-- A single use. -/
theorem sequence_singleton {σ α : Type} (act : StackUse → σ → α × σ) (use : StackUse) (state : σ) :
    sequence act [use] state = ([(act use state).1], (act use state).2) := rfl

/-! ## Counting -/

section Counting

variable (uses : List StackUse) (use : StackUse)

/-- A push counts as one. -/
theorem pushes_append :
    pushes (uses ++ [use]) = pushes uses + if use.isPush then 1 else 0 := by
  simp [pushes, List.countP_append, List.countP_singleton]

/-- A pop counts as one. -/
theorem pops_append : pops (uses ++ [use]) = pops uses + if use.isPush then 0 else 1 := by
  cases pushing : use.isPush <;> simp [pops, List.countP_append, pushing]

/-- One more use adds one moment. -/
theorem inits_append : (uses ++ [use]).inits = uses.inits ++ [uses ++ [use]] := by
  rw [List.inits_append]
  rfl

/-- The stack is largest before the last use or behind it. -/
theorem reach_append : reach (uses ++ [use]) = max (reach uses) (depth (uses ++ [use])) := by
  rw [reach, inits_append, List.map_append, List.foldl_append]
  rfl

/-- One more use is balanced if the ones before are, and there is a word to pop or a cell to push
to. -/
theorem balanced_append_iff :
    Balanced (uses ++ [use]) ↔ Balanced uses ∧
      pops (uses ++ [use]) ≤ pushes (uses ++ [use]) ∧
        pushes (uses ++ [use]) ≤ pops (uses ++ [use]) + 65536 := by
  rw [Balanced, inits_append, List.forall_mem_append, List.forall_mem_singleton]
  rfl

end Counting

/-! ## One use -/

section Apply

variable (machine : Machine)

/-- The operand has no inline word, so it is ready at once. -/
theorem ready_operand (use : StackUse) :
    use.operand.prepare machine = ⟨.ok (), use.operand, machine⟩ ∧
      Operand.Ready use.operand use.operand machine.contents := by
  cases use with
  | push slot value => exact ⟨rfl, ⟨rfl, rfl, fun _ indexed => by cases indexed⟩, rfl, rfl⟩
  | pop slot => exact ⟨rfl, ⟨rfl, rfl, fun _ indexed => by cases indexed⟩, rfl, rfl⟩

/-- A push moves SP down and changes the cell below the top. -/
theorem exists_apply_push (slot : Slot) (value : Word) :
    let below := machine.contents (.register .sp) - 1
    ∃ next, (push slot value).apply machine = (.ok none, next) ∧
      next.contents =
        Function.update (Function.update machine.contents (.register .sp) below)
          (.cell below) value := by
  intro below
  obtain ⟨prepares, ready⟩ := ready_operand machine (push slot value)
  have unclaimed : (push slot value).operand.stackAddress ≠ none →
      (push slot value).operand.mode = .pop := fun claimed => absurd rfl claimed
  obtain ⟨written, next, writes, -, stored, -⟩ :=
    Operand.exists_store_eq ready.toPrepared trivial rfl unclaimed value
  refine ⟨next, ?_, stored⟩
  unfold apply
  rw [prepares]
  simp only [writes]
  rfl

/-- A pop gives the word at the top and moves SP up. A key is taken out of its cell. -/
theorem exists_apply_pop (slot : Slot) :
    let top := machine.contents (.register .sp)
    ∃ next, (pop slot).apply machine = (.ok (some (machine.contents (.cell top))), next) ∧
      next.contents =
        Contents.taken (Function.update machine.contents (.register .sp) (top + 1)) top := by
  intro top
  obtain ⟨prepares, ready⟩ := ready_operand machine (pop slot)
  have readable : (pop slot).operand.mode ≠ .push := fun pushes => by cases pushes
  obtain ⟨next, reads, taken, -⟩ := Operand.exists_read_eq ready trivial readable
  refine ⟨next, ?_, taken⟩
  unfold apply
  rw [prepares]
  simp only [reads]
  rfl

end Apply

/-! ## The list in memory -/

/-- Contents that hold a stack which has grown down from where SP was at the start: they differ from
the start in SP and in cells that the stack has reached. -/
structure Represents (start contents : Contents) (stack : List Word) (reach : Nat) : Prop where
  sp : contents (.register .sp) = start (.register .sp) - .ofNat stack.length
  cells : ∀ i (below : i < stack.length),
    contents (.cell (contents (.register .sp) + .ofNat i)) = stack[i]
  within : stack.length ≤ reach
  kept : ∀ address, (∀ d, 1 ≤ d → d ≤ reach → address ≠ start (.register .sp) - .ofNat d) →
    contents (.cell address) = start (.cell address)
  registers : ∀ register, register ≠ .sp →
    contents (.register register) = start (.register register)

section Represents

variable {start contents : Contents} {stack : List Word} {reach : Nat}

/-- Cells of a stack that fits into the memory are different cells. -/
theorem cell_ne_top {i : Nat} (fits : i + 1 < 65536) (top : Word) :
    top + .ofNat (i + 1) ≠ top := by
  intro same
  have sum := congrArg UInt16.toNat same
  rw [UInt16.toNat_add, UInt16.toNat_ofNat_of_lt' fits] at sum
  have bound := top.toNat_lt
  omega

/-- Nothing is on the stack at the start. -/
theorem represents_nil : Represents start start [] 0 where
  sp := (UInt16.sub_zero _).symm
  cells i below := by simp at below
  within := le_rfl
  kept _ _ := rfl
  registers _ _ := rfl

/-- A push adds the word as the top. -/
theorem Represents.push (represents : Represents start contents stack reach)
    (room : stack.length < 65536) (value : Word) :
    let below := contents (.register .sp) - 1
    Represents start
      (Function.update (Function.update contents (.register .sp) below) (.cell below) value)
      (value :: stack) (max reach (stack.length + 1)) := by
  intro below
  have below_eq : below = start (.register .sp) - .ofNat (stack.length + 1) := by
    show contents (.register .sp) - 1 = _
    rw [represents.sp, UInt16.ofNat_add, sub_sub]
    rfl
  refine ⟨?_, ?_, ?_, ?_, ?_⟩
  · simpa using below_eq
  · intro i inside
    have sp_eq : Function.update (Function.update contents (.register .sp) below) (.cell below)
        value (.register .sp) = below := by simp
    rw [sp_eq]
    cases i with
    | zero => simp
    | succ i =>
      have fits : i < stack.length := Nat.lt_of_succ_lt_succ inside
      have other : below + .ofNat (i + 1) ≠ below := cell_ne_top (by omega) below
      have above : below + .ofNat (i + 1) = contents (.register .sp) + .ofNat i := by
        show contents (.register .sp) - 1 + _ = _
        rw [UInt16.ofNat_add, UInt16.add_comm (.ofNat i), ← UInt16.add_assoc]
        congr 1
        exact UInt16.sub_add_cancel _ 1
      rw [Function.update_of_ne (by simpa using other), Function.update_of_ne (by simp), above,
        represents.cells i fits]
      rfl
  · exact le_max_right _ _
  · intro address outside
    have other : address ≠ below := by
      rw [below_eq]
      exact outside (stack.length + 1) (Nat.le_add_left 1 _) (le_max_right _ _)
    rw [Function.update_of_ne (by simpa using other), Function.update_of_ne (by simp)]
    exact represents.kept address fun d positive reached =>
      outside d positive (reached.trans (le_max_left _ _))
  · intro register other
    rw [Function.update_of_ne (by simp), Function.update_of_ne (by simpa using other)]
    exact represents.registers register other

/-- A pop removes the top, which is the word in the cell that SP addresses. -/
theorem Represents.pop {value : Word}
    (represents : Represents start contents (value :: stack) reach)
    (room : stack.length < 65536) :
    let top := contents (.register .sp)
    contents (.cell top) = value ∧
      Represents start
        (Contents.taken (Function.update contents (.register .sp) (top + 1)) top) stack reach := by
  intro top
  have top_eq : top = start (.register .sp) - .ofNat (stack.length + 1) := represents.sp
  have next_eq : top + 1 = start (.register .sp) - .ofNat stack.length := by
    rw [top_eq, UInt16.ofNat_add, ← sub_sub]
    exact UInt16.sub_add_cancel _ 1
  refine ⟨?_, ?_, ?_, ?_, ?_, ?_⟩
  · have first := represents.cells 0 (Nat.zero_lt_succ _)
    have here : contents (.register .sp) + .ofNat 0 = top := UInt16.add_zero _
    rw [here] at first
    exact first
  · rw [taken_register, Function.update_self]
    exact next_eq
  · intro i inside
    have above : top + 1 + .ofNat i = top + .ofNat (i + 1) := by
      rw [UInt16.ofNat_add, UInt16.add_comm (.ofNat i), ← UInt16.add_assoc]
      rfl
    have other : top + .ofNat (i + 1) ≠ top := cell_ne_top (by omega) top
    rw [taken_register, Function.update_self, above, taken_cell, if_neg (fun both => other both.1),
      Function.update_of_ne (by simp), represents.cells (i + 1) (Nat.succ_lt_succ inside)]
    rfl
  · exact (Nat.le_succ _).trans represents.within
  · intro address outside
    have other : address ≠ top := by
      rw [top_eq]
      exact outside (stack.length + 1) (Nat.le_add_left 1 _) represents.within
    rw [taken_cell, if_neg (fun both => other both.1), Function.update_of_ne (by simp)]
    exact represents.kept address outside
  · intro register other
    rw [taken_register, Function.update_of_ne (by simpa using other)]
    exact represents.registers register other

/-- A use of the stack does in memory what it does to the list, if there is a word to pop or a cell
to push to. -/
theorem Represents.apply {machine : Machine}
    (represents : Represents start machine.contents stack reach)
    (use : StackUse) (enough : use.isPush = false → 0 < stack.length)
    (room : stack.length + (if use.isPush then 1 else 0) ≤ 65536) :
    (use.apply machine).1 = .ok (use.onList stack).1 ∧
      Represents start (use.apply machine).2.contents (use.onList stack).2
        (max reach (use.onList stack).2.length) := by
  cases use with
  | push slot value =>
    obtain ⟨next, applies, contents⟩ := exists_apply_push machine slot value
    have grown := represents.push (Nat.lt_of_succ_le room) value
    rw [applies]
    exact ⟨rfl, contents ▸ grown⟩
  | pop slot =>
    obtain ⟨next, applies, contents⟩ := exists_apply_pop machine slot
    obtain ⟨value, rest, rfl⟩ := List.exists_cons_of_length_pos (enough rfl)
    obtain ⟨top, shrunk⟩ := represents.pop (Nat.lt_of_succ_le room)
    have reached : max reach rest.length = reach := max_eq_left shrunk.within
    rw [applies, top]
    simp only [onList, List.tail_cons, reached]
    exact ⟨rfl, contents ▸ shrunk⟩

end Represents

/-! ## Uses in a row -/

section Sequence

variable {uses : List StackUse}

/-- The first of balanced uses are balanced. -/
theorem Balanced.of_mem_inits {front : List StackUse} (balanced : Balanced uses)
    (member : front ∈ uses.inits) : Balanced front := by
  intro part inside
  have before : part <+: uses :=
    ((List.mem_inits part front).mp inside).trans ((List.mem_inits front uses).mp member)
  exact balanced part ((List.mem_inits part uses).mpr before)

/-- Balanced uses of a list leave as many words as their depth says, and each pop gives a word. -/
theorem length_onList (balanced : Balanced uses) :
    (sequence onList uses []).2.length = depth uses ∧
      ((sequence onList uses []).1.filterMap id).length = pops uses := by
  induction uses using List.reverseRecOn with
  | nil => exact ⟨rfl, rfl⟩
  | append_singleton uses use ih =>
    obtain ⟨earlier, enough, -⟩ := (balanced_append_iff uses use).mp balanced
    obtain ⟨length, popped⟩ := ih earlier
    rw [depth, sequence_append, sequence_singleton, List.filterMap_append, List.length_append,
      popped]
    rw [pushes_append, pops_append] at *
    generalize sequence onList uses [] = list at length
    obtain ⟨answers, stack⟩ := list
    have now : stack.length = pushes uses - pops uses := length
    have before := (earlier uses ((List.mem_inits uses uses).mpr (List.prefix_refl uses))).1
    cases use with
    | push slot value =>
      have more : (value :: stack).length = pushes uses + 1 - pops uses := by
        rw [List.length_cons]
        omega
      exact ⟨more, rfl⟩
    | pop slot =>
      have more : pops uses + 1 ≤ pushes uses := enough
      have some : 0 < stack.length := by omega
      obtain ⟨value, rest, rfl⟩ := List.exists_cons_of_length_pos some
      have fewer : rest.length = pushes uses - (pops uses + 1) := by
        rw [List.length_cons] at now
        omega
      exact ⟨fewer, rfl⟩

/-- Balanced uses of the stack in memory and of a list give the same answers, and the memory then
represents the list. -/
theorem sequence_represents (machine : Machine) (balanced : Balanced uses) :
    (sequence StackUse.apply uses machine).1 = (sequence onList uses []).1.map .ok ∧
      Represents machine.contents (sequence StackUse.apply uses machine).2.contents
        (sequence onList uses []).2 (reach uses) := by
  -- By induction on the uses, of which one more is made at the end.
  induction uses using List.reverseRecOn with
  | nil => exact ⟨rfl, represents_nil⟩
  | append_singleton uses use ih =>
    obtain ⟨earlier, enough, room⟩ := (balanced_append_iff uses use).mp balanced
    obtain ⟨answers, represents⟩ := ih earlier
    have before : (sequence onList uses []).2.length = pushes uses - pops uses :=
      (length_onList earlier).1
    have after : (use.onList (sequence onList uses []).2).2.length = depth (uses ++ [use]) := by
      rw [← (length_onList balanced).1, sequence_append, sequence_singleton]
    have balance := earlier uses ((List.mem_inits uses uses).mpr (List.prefix_refl uses))
    rw [pushes_append, pops_append] at enough room
    have poppable : use.isPush = false → 0 < (sequence onList uses []).2.length := by
      intro isPop
      rw [before]
      simp only [isPop, Bool.false_eq_true, ↓reduceIte] at enough
      omega
    have storable :
        (sequence onList uses []).2.length + (if use.isPush then 1 else 0) ≤ 65536 := by
      rw [before]
      cases pushing : use.isPush with
      | false =>
        have filled := balance.2
        simp only [Bool.false_eq_true, ↓reduceIte]
        omega
      | true =>
        simp only [pushing, ↓reduceIte] at room ⊢
        omega
    obtain ⟨answer, next⟩ := represents.apply use poppable storable
    rw [after, ← reach_append] at next
    rw [sequence_append, sequence_append, sequence_singleton, sequence_singleton]
    refine ⟨?_, next⟩
    rw [List.map_append, ← answers, answer]
    rfl

/-- Words that are pushed and popped through operands make up a list at every moment of balanced
uses. Each pop gives a word, which is the top of the list. SP is below its start by the depth, the
cells from SP on hold the list, and all cells that the stack has not reached and all other registers
are as they were. -/
theorem stack_lifo (machine : Machine) (balanced : Balanced uses) :
    ∀ front ∈ uses.inits,
      let start := machine.get .sp
      let inMemory := sequence StackUse.apply front machine
      let inList := sequence onList front []
      inMemory.1 = inList.1.map .ok ∧ (inList.1.filterMap id).length = pops front ∧
        inList.2.length = depth front ∧ inMemory.2.get .sp = start - .ofNat (depth front) ∧
        (∀ i (below : i < inList.2.length),
          inMemory.2.peek (inMemory.2.get .sp + .ofNat i) = inList.2[i]) ∧
        (∀ address, (∀ d, 1 ≤ d → d ≤ reach front → address ≠ start - .ofNat d) →
          inMemory.2.peek address = machine.peek address) ∧
        ∀ register, register ≠ .sp → inMemory.2.get register = machine.get register := by
  intro front member start inMemory inList
  have first := balanced.of_mem_inits member
  obtain ⟨length, popped⟩ := length_onList first
  obtain ⟨answers, represents⟩ := sequence_represents machine first
  have sp : inMemory.2.get .sp = start - .ofNat inList.2.length := represents.sp
  rw [length] at sp
  exact ⟨answers, popped, length, sp, represents.cells, represents.kept, represents.registers⟩

/-- Uses of a stack that starts two cells inside the keyboard window and grows out of it. -/
def typedOver : List StackUse :=
  [.push .a 7, .push .b 8, .pop .a, .push .a 9, .push .a 10, .pop .b, .pop .b, .pop .a]

/-- The stack behaves like a list though some of its cells are cleared when they are read. -/
theorem stack_lifo_typedOver :
    let machine : Machine := { registers := { sp := 0x9002 } }
    Balanced typedOver ∧
      (sequence StackUse.apply typedOver machine).1 =
        [none, none, some 8, none, none, some 10, some 9, some 7].map .ok ∧
      (sequence StackUse.apply (typedOver.take 5) machine).2.peek 0x9001 = 7 := by
  intro machine
  have balanced : Balanced typedOver := by decide
  obtain ⟨answers, -⟩ := stack_lifo machine balanced typedOver (by decide)
  obtain ⟨-, -, -, sp, cells, -⟩ := stack_lifo machine balanced (typedOver.take 5) (by decide)
  have expected : (sequence onList typedOver []).1 =
      [none, none, some 8, none, none, some 10, some 9, some 7] := by decide
  have bottom : (0x9001 : Word) =
      machine.get .sp - .ofNat (depth (typedOver.take 5)) + .ofNat 2 := by decide
  refine ⟨balanced, ?_, ?_⟩
  · rw [answers, expected]
  · rw [bottom, ← sp]
    exact cells 2 (by decide)

end Sequence

end StackUse

end Dcpu16
