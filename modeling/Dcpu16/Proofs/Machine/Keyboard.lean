import Dcpu16.Proofs.Machine.Operations

/-!
# Keys

A key goes into the first free cell of the keyboard window, and the read of a cell takes it out.
What is done to the machine is written down with its answers (`Machine.perform`); from this record
come the keys that have been accepted and those that have been delivered. One operation neither
loses a key nor makes one (`Machine.Operation.held_apply`), so over any row of operations the keys
accepted are the keys delivered and the keys that are still held (`Machine.keys_conserved`).
-/
namespace Dcpu16

/-! ## The cells of the window -/

/-- The cells of the keyboard window are those with an address in it. -/
theorem Window.mem_keys_iff (address : Word) :
    address ∈ keys ↔ keyboard.contains address = true := by
  constructor
  · have all : keys.all keyboard.contains = true := by decide
    exact List.all_eq_true.mp all address
  · intro inside
    obtain ⟨lower, upper⟩ := (contains_iff keyboard address).mp inside
    have above : 0x9000 ≤ address.toNat := UInt16.le_iff_toNat_le.mp lower
    have below : address.toNat ≤ 0x900F := UInt16.le_iff_toNat_le.mp upper
    refine List.mem_map.mpr ⟨address.toNat - 0x9000, List.mem_range.mpr (by omega), ?_⟩
    apply UInt16.toNat_inj.mp
    have bound : address.toNat - 0x9000 < 65536 := by omega
    have small : (UInt16.ofNat (address.toNat - 0x9000)).toNat = address.toNat - 0x9000 :=
      UInt16.toNat_ofNat_of_lt' bound
    have first : keyboard.first.toNat = 0x9000 := rfl
    rw [UInt16.toNat_add, small, first]
    omega

/-- The cells of the window are listed from the lowest address up. -/
theorem Window.pairwise_keys : keys.Pairwise (· < ·) := by
  decide

/-- The keys that the cells of the window hold. -/
def Contents.held (contents : Contents) : Multiset Word :=
  ((Window.keys : Multiset Word).map fun address => contents (.cell address)).filter (· ≠ 0)

/-- The key that a cell with this word holds, if it holds one. -/
def keyOf (word : Word) : Multiset Word := if word ≠ 0 then {word} else 0

section Held

variable (contents : Contents)

/-- Registers and cells outside the window hold no keys. -/
theorem held_update_of_outside {place : Place}
    (outside : ∀ address, Window.keyboard.contains address = true → place ≠ .cell address)
    (value : Word) : Contents.held (Function.update contents place value) = contents.held := by
  unfold Contents.held
  congr 1
  apply Multiset.map_congr rfl
  intro address member
  have inside := (Window.mem_keys_iff address).mp member
  exact Function.update_of_ne (outside address inside).symm value contents

/-- When a cell of the window changes, the key in it is exchanged. -/
theorem held_update {address : Word} (inside : Window.keyboard.contains address = true)
    (value : Word) :
    Contents.held (Function.update contents (.cell address) value) +
        keyOf (contents (.cell address)) =
      contents.held + keyOf value := by
  have member : address ∈ (Window.keys : Multiset Word) := (Window.mem_keys_iff address).mpr inside
  obtain ⟨rest, keys_eq⟩ := Multiset.exists_cons_of_mem member
  have distinct : (Window.keys : Multiset Word).Nodup := 
    Window.pairwise_keys.imp fun less => UInt16.ne_of_lt less
  rw [keys_eq, Multiset.nodup_cons] at distinct
  have others : rest.map (fun other =>
        Function.update contents (.cell address) value (.cell other)) =
      rest.map fun other => contents (.cell other) := by
    apply Multiset.map_congr rfl
    intro other elsewhere
    have apart : other ≠ address := fun same => distinct.1 (same ▸ elsewhere)
    have differ : Place.cell other ≠ .cell address := by simpa using apart
    exact Function.update_of_ne differ value contents
  unfold Contents.held
  rw [keys_eq, Multiset.map_cons, Multiset.map_cons, others, Function.update_self,
    Multiset.filter_cons, Multiset.filter_cons]
  unfold keyOf
  abel

/-- The read of a cell in the window takes the key out that it holds. -/
theorem held_taken_of_inside {address : Word} (inside : Window.keyboard.contains address = true) :
    (contents.taken address).held + keyOf (contents (.cell address)) = contents.held := by
  have exchanged := held_update contents inside 0
  rw [Contents.taken, if_pos inside, exchanged]
  exact add_zero _

end Held

namespace Machine

/-! ## Pressing a key -/

section PressKey

variable (machine : Machine) (key : Word)

/-- A key is refused without a change if it is 0 or all cells of the window are taken. Otherwise it
goes into the free cell with the lowest address. -/
theorem pressKey_cases :
    (machine.pressKey key = (false, machine) ∧
      (key = 0 ∨ ∀ address, Window.keyboard.contains address = true →
        machine.peek address ≠ 0)) ∨
    (key ≠ 0 ∧ ∃ address, Window.keyboard.contains address = true ∧ machine.peek address = 0 ∧
      (∀ lower, Window.keyboard.contains lower = true → lower < address →
        machine.peek lower ≠ 0) ∧
      machine.pressKey key = (true, machine.write address key)) := by
  by_cases none : key = 0
  · left
    exact ⟨if_pos none, .inl none⟩
  · have presses : machine.pressKey key = _ := if_neg none
    cases found : Window.keys.find? fun address => machine.peek address == 0 with
    | none =>
      rw [found] at presses
      left
      refine ⟨presses, .inr fun address inside free => ?_⟩
      have taken := List.find?_eq_none.mp found address ((Window.mem_keys_iff address).mpr inside)
      exact taken (beq_iff_eq.mpr free)
    | some address =>
      rw [found] at presses
      right
      obtain ⟨free, before, behind, split, taken⟩ := List.find?_eq_some_iff_append.mp found
      have member : address ∈ Window.keys := List.mem_of_find?_eq_some found
      refine ⟨none, address, (Window.mem_keys_iff address).mp member, beq_iff_eq.mp free, ?_,
        presses⟩
      intro lower inside less empty
      have place : lower ∈ before ++ address :: behind :=
        split ▸ (Window.mem_keys_iff lower).mpr inside
      have sorted := Window.pairwise_keys
      rw [split, List.pairwise_append, List.pairwise_cons] at sorted
      have notBehind : lower ∉ address :: behind := by
        intro later
        rcases List.mem_cons.mp later with same | later
        · exact absurd same (UInt16.ne_of_lt less)
        · exact absurd (sorted.2.1.1 lower later) (UInt16.lt_asymm less)
      have earlier : lower ∈ before := (List.mem_append.mp place).resolve_right notBehind
      have full := taken lower earlier
      simp [empty] at full

/-- A key is refused exactly if it is 0 or all cells of the window are taken. -/
theorem pressKey_eq_false_iff :
    (machine.pressKey key).1 = false ↔
      key = 0 ∨ ∀ address, Window.keyboard.contains address = true →
        machine.peek address ≠ 0 := by
  obtain ⟨presses, full⟩ | ⟨real, address, inside, free, -, presses⟩ := machine.pressKey_cases key
  · rw [presses]
    exact iff_of_true rfl full
  · rw [presses]
    refine iff_of_false (by simp) ?_
    rintro (none | full)
    · exact real none
    · exact full address inside free

end PressKey

/-! ## Keys in and out -/

/-- Does the operation reach the cells of the window by a read or a key alone? -/
def Operation.sparesKeys : Operation → Bool
  | pressKey _ | read _ | peek _ | dump _ _ => true
  | write address _ => !Window.keyboard.contains address
  | _ => false

/-- The key that has been accepted, if the operation has pressed one and the answer says so. -/
def acceptedKey : Operation × Answer → Multiset Word
  | (.pressKey key, .truth true) => {key}
  | _ => 0

/-- The key that has been delivered, if the operation has read a cell of the window and the answer
is a key. -/
def deliveredKey : Operation × Answer → Multiset Word
  | (.read address, .word value) =>
    if Window.keyboard.contains address then keyOf value else 0
  | _ => 0

/-- Carry out operations, each written down with its answer. -/
def perform : List Operation → Machine → List (Operation × Answer) × Machine
  | [], machine => ([], machine)
  | operation :: operations, machine =>
    let (answer, machine) := operation.apply machine
    let (record, machine) := perform operations machine
    ((operation, answer) :: record, machine)

/-- The keys that have been accepted. -/
def accepted (record : List (Operation × Answer)) : Multiset Word := (record.map acceptedKey).sum

/-- The keys that have been delivered. -/
def delivered (record : List (Operation × Answer)) : Multiset Word := (record.map deliveredKey).sum

/-- A read delivers the key that it takes out. -/
theorem held_read (machine : Machine) (address : Word) :
    deliveredKey (.read address, .word (machine.read address).1) +
        (machine.read address).2.contents.held =
      machine.contents.held := by
  rw [contents_read, fst_read]
  cases inside : Window.keyboard.contains address with
  | false =>
    have untouched := taken_of_outside machine.contents address inside
    simp [deliveredKey, inside, untouched]
  | true =>
    have taken := held_taken_of_inside machine.contents inside
    rw [add_comm]
    simpa [deliveredKey, inside] using taken

/-- A key that is accepted is held, and one that is refused is not. -/
theorem held_pressKey (machine : Machine) (key : Word) :
    acceptedKey (.pressKey key, .truth (machine.pressKey key).1) + machine.contents.held =
      (machine.pressKey key).2.contents.held := by
  obtain ⟨presses, -⟩ | ⟨real, address, inside, free, -, presses⟩ := machine.pressKey_cases key
  · rw [presses]
    exact zero_add _
  · have exchanged := held_update machine.contents inside key
    have empty : machine.contents (.cell address) = 0 := free
    rw [presses, contents_write]
    simp only [empty, keyOf, ne_eq, not_true, ↓reduceIte, add_zero, real, not_false_eq_true]
      at exchanged
    rw [exchanged, add_comm]
    rfl

/-- No operation loses a key or makes one: what was held or has been accepted has been delivered or
is held. -/
theorem Operation.held_apply {operation : Operation} (spares : operation.sparesKeys = true)
    (machine : Machine) :
    acceptedKey (operation, (operation.apply machine).1) + machine.contents.held =
      deliveredKey (operation, (operation.apply machine).1) +
        (operation.apply machine).2.contents.held := by
  cases operation with
  | pressKey key => exact (machine.held_pressKey key).trans (zero_add _).symm
  | read address => exact (zero_add _).trans (machine.held_read address).symm
  | peek address => rfl
  | dump start count => rfl
  | write address value =>
    have outside : Window.keyboard.contains address = false := by
      simpa [sparesKeys] using spares
    have same : (machine.write address value).contents.held = machine.contents.held := by
      rw [contents_write]
      apply held_update_of_outside
      rintro other inside same
      cases same
      exact absurd inside (by simp [outside])
    exact congrArg (0 + ·) same.symm
  | _ => cases spares

/-- Over any row of operations, the keys that were held or have been accepted are those that have
been delivered or are held. -/
theorem held_perform {operations : List Operation}
    (spare : ∀ operation ∈ operations, operation.sparesKeys = true) (machine : Machine) :
    accepted (perform operations machine).1 + machine.contents.held =
      delivered (perform operations machine).1 +
        (perform operations machine).2.contents.held := by
  induction operations generalizing machine with
  | nil => rfl
  | cons operation operations ih =>
    have first := Operation.held_apply (spare operation List.mem_cons_self) machine
    have rest := ih (fun other member => spare other (List.mem_cons_of_mem operation member))
      (operation.apply machine).2
    simp only [perform, accepted, delivered, List.map_cons, List.sum_cons] at rest ⊢
    rw [add_right_comm, first, add_right_comm, add_assoc, rest, ← add_assoc]

/-- No key is lost and none is delivered twice: from an empty window on, the keys that have been
accepted are those that have been delivered and those that are still held. A key is refused, without
a change, exactly if it is 0 or all cells of the window are taken; otherwise nothing changes but the
free cell with the lowest address, which gets the key. -/
theorem keys_conserved {machine : Machine} {operations : List Operation}
    (spare : ∀ operation ∈ operations, operation.sparesKeys = true)
    (empty : ∀ address, Window.keyboard.contains address = true → machine.peek address = 0) :
    accepted (perform operations machine).1 =
        delivered (perform operations machine).1 +
          (perform operations machine).2.contents.held ∧
      ∀ (reached : Machine) (key : Word),
        ((reached.pressKey key).1 = false ↔
          key = 0 ∨ ∀ address, Window.keyboard.contains address = true →
            reached.peek address ≠ 0) ∧
        ((reached.pressKey key).1 = false → (reached.pressKey key).2 = reached) ∧
        ((reached.pressKey key).1 = true →
          ∃ address, Window.keyboard.contains address = true ∧ reached.peek address = 0 ∧
            (∀ lower, Window.keyboard.contains lower = true → lower < address →
              reached.peek lower ≠ 0) ∧
            (reached.pressKey key).2.contents =
              Function.update reached.contents (.cell address) key) := by
  constructor
  · have nothing : machine.contents.held = 0 := by
      refine Multiset.filter_eq_nil.mpr fun word member => not_not.mpr ?_
      obtain ⟨address, place, rfl⟩ := Multiset.mem_map.mp member
      exact empty address ((Window.mem_keys_iff address).mp place)
    rw [← held_perform spare machine, nothing, add_zero]
  · intro reached key
    refine ⟨reached.pressKey_eq_false_iff key, ?_, ?_⟩
    · obtain ⟨presses, -⟩ | ⟨-, address, -, -, -, presses⟩ := reached.pressKey_cases key
      · intro _
        rw [presses]
      · rw [presses]
        exact fun refused => by cases refused
    · obtain ⟨presses, -⟩ | ⟨-, address, inside, free, lowest, presses⟩ :=
        reached.pressKey_cases key
      · rw [presses]
        exact fun accepted => by cases accepted
      · intro _
        refine ⟨address, inside, free, lowest, ?_⟩
        rw [presses]
        exact reached.contents_write address key

/-- Keys that are pressed and read out of their order, with a write next to the window. -/
def typing : List Operation :=
  [.pressKey 0x41, .pressKey 0x42, .read 0x9000, .pressKey 0x43, .pressKey 0, .peek 0x9000,
    .read 0x9001, .write 0x9010 0x44, .dump 0x8FFE 4, .read 0x9005, .read 0x9010]

/-- None of these keys is lost, and the first is accepted. -/
theorem keys_conserved_typing :
    accepted (perform typing fresh).1 =
        delivered (perform typing fresh).1 + (perform typing fresh).2.contents.held ∧
      (fresh.pressKey 0x41).1 = true := by
  have spare : ∀ operation ∈ typing, operation.sparesKeys = true := by
    have all : typing.all Operation.sparesKeys = true := by decide
    exact List.all_eq_true.mp all
  have empty : ∀ address, Window.keyboard.contains address = true → fresh.peek address = 0 :=
    fun address _ => Ram.peek_blank address
  obtain ⟨conserved, presses⟩ := keys_conserved spare empty
  refine ⟨conserved, Bool.eq_true_of_not_eq_false fun refused => ?_⟩
  rcases (presses fresh 0x41).1.mp refused with none | full
  · exact absurd none (by decide)
  · exact full 0x9000 (by decide) (Ram.peek_blank _)

end Machine

end Dcpu16
