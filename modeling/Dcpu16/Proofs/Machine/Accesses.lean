import Dcpu16.Proofs.Machine.Located

/-!
# What an access does

Every access of an operand that comes from a code, said as a change of contents, stack modes and
the keyboard window included. `Operand.fetching` is the change that the inline word makes when it is
fetched, `Operand.reading` the change made by a read, and `Operand.storing` the change made by a
write; the value that is read is the one the operand has in the contents
(`Operand.exists_read_eq`). The mark of a jump is set by a write to PC and by nothing else.
-/
namespace Dcpu16

namespace Operand

/-- The operand as it stands in a program: its inline word, and nothing that an execution has
captured. -/
def forget (operand : Operand) : Operand :=
  { operand with registerValue := 0, stackAddress := none }

/-- The contents once SP has moved for the first access through the operand. -/
def claiming (operand : Operand) (contents : Contents) : Contents :=
  if operand.mode = .pop then
    Function.update contents (.register .sp) (contents (.register .sp) + 1)
  else if operand.mode = .push then
    Function.update contents (.register .sp) (contents (.register .sp) - 1)
  else contents

/-- The operand with a stack cell claimed, or with none. -/
def holding (operand : Operand) (claimed : Option Word) : Operand :=
  { operand with stackAddress := claimed }

/-- What an operand holds does not change how it stands in the program. -/
theorem forget_holding (operand : Operand) (claimed : Option Word) :
    (operand.holding claimed).forget = operand.forget := rfl

/-- The stack cell that a read claims for the write that may follow. -/
def claim? (operand : Operand) (contents : Contents) : Option Word :=
  if operand.mode = .pop then some (contents (.register .sp)) else none

/-- The contents after the operand has fetched its inline word: PC stands on the word, and a key is
taken out of its cell. -/
def fetching (operand : Operand) (contents : Contents) : Contents :=
  if operand.mode.takesWord then
    let address := contents (.register .pc) + 1
    Contents.taken (Function.update contents (.register .pc) address) address
  else contents

/-- The contents after the operand is read: SP has moved for POP, and a key is taken out of its
cell. -/
def reading (operand : Operand) (contents : Contents) : Contents :=
  match operand.place? contents with
  | some (.cell address) => (operand.claiming contents).taken address
  | _ => operand.claiming contents

/-- The places of operands that are read one after the other, each as it is when its turn comes. -/
def placesRead : List Operand → Contents → List (Option Place)
  | [], _ => []
  | operand :: operands, contents =>
    operand.place? contents :: placesRead operands (operand.reading contents)

/-- The contents after a value is stored in the operand: in the stack cell that a read has claimed,
or else in the place of the operand, SP having moved for POP and PUSH. -/
def storing (operand : Operand) (claimed : Option Word) (contents : Contents) (value : Word) :
    Contents :=
  match claimed with
  | some address => Function.update contents (.cell address) value
  | none =>
    match operand.place? contents with
    | some place => Function.update (operand.claiming contents) place value
    | none => contents

/-- An operand is prepared, and no access of the execution has been made through it. -/
structure Ready (operand ready : Operand) (contents : Contents) : Prop
    extends Prepared operand ready contents where
  slot_eq : ready.slot = operand.slot
  unclaimed : ready.stackAddress = none

section Frames

variable {operand : Operand} {contents : Contents}

/-- Fetching changes no register but PC. -/
theorem fetching_register {register : Register} (other : register ≠ .pc) :
    operand.fetching contents (.register register) = contents (.register register) := by
  unfold fetching
  split
  · rw [taken_register, Function.update_of_ne (by simpa using other)]
  · rfl

/-- Fetching moves PC to the inline word, if there is one. -/
theorem fetching_pc (operand : Operand) (contents : Contents) :
    operand.fetching contents (.register .pc) =
      contents (.register .pc) + if operand.mode.takesWord then 1 else 0 := by
  unfold fetching
  cases operand.mode.takesWord <;> simp

/-- Fetching does not touch the cell behind the one where PC then stands. -/
theorem fetching_behind (operand : Operand) (contents : Contents) :
    let address := operand.fetching contents (.register .pc) + 1
    operand.fetching contents (.cell address) = contents (.cell address) := by
  unfold fetching
  cases operand.mode.takesWord <;> simp [taken_cell]

/-- Claiming changes nothing but SP. -/
theorem claiming_of_ne {place : Place} (other : place ≠ .register .sp) :
    operand.claiming contents place = contents place := by
  unfold claiming
  split
  · rw [Function.update_of_ne other]
  · split
    · rw [Function.update_of_ne other]
    · rfl

/-- SP does not move for other modes than POP and PUSH. -/
theorem claiming_of_still (still : operand.mode.movesStack = false) :
    operand.claiming contents = contents := by
  obtain ⟨noPop, noPush⟩ := Mode.ne_stack_of_still still
  rw [claiming, if_neg noPop, if_neg noPush]

/-- An operand stands for PC if and only if this is its place. -/
theorem place_eq_pc_iff {place : Place} (located : operand.place? contents = some place) :
    .register .pc = place ↔ operand.mode = .programCounter :=
  (place_eq_register_iff located .pc).trans Mode.register?_eq_pc_iff

/-- Reading changes no register but SP. -/
theorem reading_register {register : Register} (other : register ≠ .sp) :
    operand.reading contents (.register register) = contents (.register register) := by
  have kept : operand.claiming contents (.register register) = contents (.register register) :=
    claiming_of_ne (by simpa using other)
  unfold reading
  rcases operand.place? contents with _ | _ | address
  · exact kept
  · exact kept
  · rw [← kept]
    exact taken_register _ address register

/-- Reading an operand moves SP as claiming does. -/
theorem reading_sp (operand : Operand) (contents : Contents) :
    operand.reading contents (.register .sp) = operand.claiming contents (.register .sp) := by
  unfold reading
  rcases operand.place? contents with _ | _ | address
  · rfl
  · rfl
  · exact taken_register _ address .sp

/-- Claiming a cell moves SP up for POP, and down for PUSH. -/
theorem claiming_sp (operand : Operand) (contents : Contents) :
    operand.claiming contents (.register .sp) =
      contents (.register .sp) + (if operand.mode = .pop then 1 else 0) -
        if operand.mode = .push then 1 else 0 := by
  unfold claiming
  by_cases pops : operand.mode = .pop
  · simp [pops]
  · by_cases pushes : operand.mode = .push <;> simp [pops, pushes]

/-- Reading an operand other than PUSH moves SP by one for POP, and not at all for other modes. -/
theorem reading_sp_of_readable (readable : operand.mode ≠ .push) :
    operand.reading contents (.register .sp) =
      contents (.register .sp) + if operand.mode = .pop then 1 else 0 := by
  rw [reading_sp, claiming_sp, if_neg readable]
  exact UInt16.sub_zero _

/-- Reading an operand takes a key out of its cell, if it is in one, and changes no other cell. -/
theorem reading_cell (operand : Operand) (contents : Contents) (address : Word) :
    operand.reading contents (.cell address) =
      if operand.place? contents = some (.cell address) ∧ Window.keyboard.contains address = true
      then 0 else contents (.cell address) := by
  have claimed : operand.claiming contents (.cell address) = contents (.cell address) :=
    claiming_of_ne (by simp)
  unfold reading
  rcases operand.place? contents with _ | register | other
  · simpa using claimed
  · simpa using claimed
  · have taken := taken_cell (operand.claiming contents) other address
    rw [claimed] at taken
    by_cases same : address = other
    · subst same
      simpa using taken
    · simpa [same, Ne.symm same] using taken

/-- Reading an operand that moves no stack changes no register. -/
theorem reading_register_of_still (still : operand.mode.movesStack = false) (register : Register) :
    operand.reading contents (.register register) = contents (.register register) := by
  unfold reading
  rw [claiming_of_still still]
  rcases operand.place? contents with _ | _ | address
  · rfl
  · rfl
  · exact taken_register contents address register

/-- Reading an operand that moves no stack and takes no key changes nothing. -/
theorem reading_of_outside (still : operand.mode.movesStack = false)
    (outside : operand.OffKeyboard contents) : operand.reading contents = contents := by
  unfold reading
  rw [claiming_of_still still]
  split
  · next address located => exact taken_of_outside contents address (outside address located)
  · rfl

/-- Reading operands one after the other changes no register but SP. -/
theorem foldl_reading_register (operands : List Operand) (contents : Contents)
    {register : Register} (other : register ≠ .sp) :
    operands.foldl (fun contents operand => operand.reading contents) contents
      (.register register) = contents (.register register) := by
  induction operands generalizing contents with
  | nil => rfl
  | cons operand operands ih => rw [List.foldl_cons, ih, reading_register other]

/-- Reading operands one after the other moves SP by one for each POP. -/
theorem foldl_reading_sp {operands : List Operand} (contents : Contents)
    (readable : ∀ operand ∈ operands, operand.mode ≠ .push) :
    operands.foldl (fun contents operand => operand.reading contents) contents (.register .sp) =
      contents (.register .sp) + .ofNat (operands.countP fun operand => operand.mode = .pop) := by
  induction operands generalizing contents with
  | nil => exact (UInt16.add_zero _).symm
  | cons operand operands ih =>
    have first : operand.mode ≠ .push := readable operand List.mem_cons_self
    have rest := ih (operand.reading contents)
      fun other member => readable other (List.mem_cons_of_mem operand member)
    rw [List.foldl_cons, rest, reading_sp_of_readable first, List.countP_cons, UInt16.ofNat_add,
      UInt16.add_comm (.ofNat _), ← UInt16.add_assoc]
    by_cases pops : operand.mode = .pop <;> simp [pops]

/-- Reading operands one after the other takes the keys out of the cells that are read, and changes
no other cell. -/
theorem foldl_reading_cell_eq (operands : List Operand) (contents : Contents) (address : Word) :
    operands.foldl (fun contents operand => operand.reading contents) contents (.cell address) =
      if some (.cell address) ∈ placesRead operands contents ∧
        Window.keyboard.contains address = true then 0 else contents (.cell address) := by
  induction operands generalizing contents with
  | nil => simp [placesRead]
  | cons operand operands ih =>
    have member : some (.cell address) ∈ placesRead (operand :: operands) contents ↔
        operand.place? contents = some (.cell address) ∨
          some (.cell address) ∈ placesRead operands (operand.reading contents) := by
      rw [placesRead, List.mem_cons]
      exact or_congr_left eq_comm
    rw [List.foldl_cons, ih, reading_cell, ← ite_or]
    -- A key that is read first is gone, whether its cell is read again or not.
    exact if_congr (by rw [member, ← or_and_right, or_comm]) rfl rfl

/-- Reading operands one after the other leaves every cell as it was, or takes a key out of it. -/
theorem foldl_reading_cell (operands : List Operand) (contents : Contents) (address : Word) :
    let read := operands.foldl (fun contents operand => operand.reading contents) contents
    read (.cell address) = contents (.cell address) ∨
      Window.keyboard.contains address = true ∧ read (.cell address) = 0 := by
  intro read
  have holds := foldl_reading_cell_eq operands contents address
  split at holds
  · next key => exact .inr ⟨key.2, holds⟩
  · exact .inl holds

/-- Storing changes PC only through the mode that stands for it. -/
theorem storing_pc {claimed : Option Word} (claims : claimed ≠ none → operand.mode = .pop)
    (value : Word) :
    operand.storing claimed contents value (.register .pc) =
      if operand.mode = .programCounter then value else contents (.register .pc) := by
  cases claimed with
  | some address =>
    have pops := claims (by simp)
    simp [storing, pops]
  | none =>
    cases located : operand.place? contents with
    | none =>
      have other : operand.mode ≠ .programCounter := by
        intro counter
        simp [place?, counter] at located
      rw [storing, located, if_neg other]
    | some place =>
      have kept : operand.claiming contents (.register .pc) = contents (.register .pc) :=
        claiming_of_ne (by simp)
      simp only [storing, located, Function.update_apply, kept, place_eq_pc_iff located]

/-- Storing through another mode than SP moves SP only where no read has claimed a stack cell. -/
theorem storing_sp (elsewhere : operand.mode ≠ .stackPointer) (claimed : Option Word)
    (value : Word) :
    operand.storing claimed contents value (.register .sp) =
      if claimed = none then operand.claiming contents (.register .sp)
      else contents (.register .sp) := by
  cases claimed with
  | some address =>
    rw [if_neg (by simp), storing]
    exact Function.update_of_ne (by simp) ..
  | none =>
    cases located : operand.place? contents with
    | none =>
      have still : operand.mode.movesStack = false := by
        cases mode : operand.mode with
        | pop | push => simp [place?, mode] at located
        | _ => rfl
      rw [storing, located, claiming_of_still still]
      rfl
    | some place =>
      have other : .register .sp ≠ place := by
        rw [ne_eq, place_eq_register_iff located, Mode.register?_eq_sp_iff]
        exact elsewhere
      rw [storing, located]
      exact Function.update_of_ne other ..

/-- A prepared operand stays prepared as long as no general register changes. -/
theorem Prepared.congr {ready : Operand} (prepared : Prepared operand ready contents)
    {other : Contents} (same : ∀ register, register ≠ .pc → register ≠ .sp →
      other (.register register) = contents (.register register)) :
    Prepared operand ready other := by
  refine ⟨prepared.mode_eq, prepared.nextWord_eq, fun index indexed => ?_⟩
  obtain ⟨register, found, captured⟩ := prepared.captured index indexed
  have kept := same register (Register.ne_pc_of_ofIndex? found) (Register.ne_sp_of_ofIndex? found)
  exact ⟨register, found, captured.trans kept.symm⟩

/-- A ready operand stays ready as long as no general register changes. -/
theorem Ready.congr {ready : Operand} (prepared : Ready operand ready contents)
    {other : Contents} (same : ∀ register, register ≠ .pc → register ≠ .sp →
      other (.register register) = contents (.register register)) : Ready operand ready other :=
  ⟨prepared.toPrepared.congr same, prepared.slot_eq, prepared.unclaimed⟩

/-- What an execution captures in an operand does not change how it stands in the program. -/
theorem Ready.forget_eq {ready : Operand} (prepared : Ready operand ready contents) :
    ready.forget = operand.forget := by
  unfold forget
  rw [prepared.mode_eq, prepared.slot_eq, prepared.nextWord_eq]

end Frames

section Accesses

variable {operand ready : Operand} {machine : Machine}

/-- An operand fetches its inline word from behind PC, and PC then stands on it. -/
theorem exists_fetch_eq (operand : Operand) (machine : Machine) {words : List Word}
    (behind : operand.mode.takesWord = true →
      words.headD 0 = machine.contents (.cell (machine.contents (.register .pc) + 1))) :
    ∃ next, operand.fetch machine = ({ (operand.fill words).1 with stackAddress := none }, next) ∧
      next.contents = operand.fetching machine.contents ∧
      next.registers.jumped = machine.registers.jumped := by
  unfold fetch fill fetching
  cases takes : operand.mode.takesWord with
  | false => exact ⟨machine, rfl, rfl, rfl⟩
  | true =>
    have here : machine.advance.registers.pc = machine.contents (.register .pc) + 1 := rfl
    have word : (machine.advance.read (machine.contents (.register .pc) + 1)).1 =
        words.headD 0 := by
      rw [machine.advance.fst_read, machine.contents_advance, Function.update_of_ne (by simp),
        behind takes]
    refine ⟨(machine.advance.read (machine.contents (.register .pc) + 1)).2, ?_, ?_, ?_⟩
    · simp only [↓reduceIte, here, word]
    · simp
    · simp

/-- An operand that comes from a code is prepared from the words behind PC, of which it takes the
first if its mode has one. -/
theorem exists_ready (machine : Machine) {words : List Word} (coded : operand.mode.Coded)
    (behind : operand.mode.takesWord = true →
      words.headD 0 = machine.contents (.cell (machine.contents (.register .pc) + 1))) :
    ∃ ready next, operand.prepare machine = ⟨.ok (), ready, next⟩ ∧
      Ready (operand.fill words).1 ready next.contents ∧
      next.contents = operand.fetching machine.contents ∧
      next.registers.jumped = machine.registers.jumped := by
  obtain ⟨next, fetches, contents, jumped⟩ := exists_fetch_eq operand machine behind
  unfold prepare
  rw [fetches]
  cases mode : operand.mode with
  | indexed index =>
    rw [mode] at coded
    obtain ⟨register, found⟩ := Register.exists_ofIndex? coded
    simp only [mode_fill, mode, Machine.general?, found, Option.map_some]
    refine ⟨_, next, rfl, ⟨⟨by rw [mode_fill, mode], rfl, fun other same => ?_⟩, rfl, rfl⟩,
      contents, jumped⟩
    cases same
    exact ⟨register, found, rfl⟩
  | _ =>
    simp only [mode_fill, mode]
    exact ⟨_, next, rfl, ⟨⟨by rw [mode_fill, mode], rfl, fun _ same => by cases same⟩, rfl, rfl⟩,
      contents, jumped⟩

/-- An operand that is passed over takes its inline word from behind PC, and nothing else
changes. -/
theorem exists_pass_eq (operand : Operand) (machine : Machine) {words : List Word}
    (behind : operand.mode.takesWord = true →
      words.headD 0 = machine.contents (.cell (machine.contents (.register .pc) + 1))) :
    ∃ next, operand.pass machine = ((operand.fill words).1.holding none, next) ∧
      next.contents = Function.update machine.contents (.register .pc)
        (machine.contents (.register .pc) + if operand.mode.takesWord then 1 else 0) ∧
      next.registers.jumped = machine.registers.jumped := by
  unfold pass fill
  cases takes : operand.mode.takesWord with
  | false => exact ⟨machine, rfl, by simp, rfl⟩
  | true =>
    have word : machine.advance.peek machine.advance.registers.pc = words.headD 0 :=
      (behind takes).symm
    refine ⟨machine.advance, ?_, by simp, by simp⟩
    simp only [↓reduceIte, word, holding]

/-- A prepared operand other than PUSH is read as its value. -/
theorem exists_read_eq (prepared : Ready operand ready machine.contents)
    (coded : operand.mode.Coded) (readable : operand.mode ≠ .push) :
    ∃ next, ready.read machine = ⟨.ok (operand.value machine.contents),
        ready.holding (operand.claim? machine.contents), next⟩ ∧
      next.contents = operand.reading machine.contents ∧
      next.registers.jumped = machine.registers.jumped := by
  by_cases pops : operand.mode = .pop
  · have located : operand.place? machine.contents =
        some (.cell (machine.contents (.register .sp))) := by simp [place?, pops]
    have claimed : operand.claiming machine.contents =
        (machine.set .sp (machine.contents (.register .sp) + 1)).contents := by
      rw [claiming, if_pos pops, machine.contents_set]
    refine ⟨((machine.set .sp (machine.contents (.register .sp) + 1)).read
      (machine.contents (.register .sp))).2, ?_, ?_, by simp⟩
    · -- SP has moved before the cell is read, and the cell still holds what it held.
      have unread : (machine.set .sp (machine.contents (.register .sp) + 1)).contents
          (.cell (machine.contents (.register .sp))) =
          machine.contents (.cell (machine.contents (.register .sp))) := by
        rw [machine.contents_set, Function.update_of_ne (by simp)]
      rw [value_of_place? located, ← unread, ← Machine.fst_read, claim?, if_pos pops]
      simp only [read, prepared.mode_eq, pops, popAddress, prepared.unclaimed,
        holding]
      rfl
    · rw [Machine.contents_read, reading, located, claimed]
  · have still : operand.mode.movesStack = false := by
      cases mode : operand.mode with
      | pop => exact absurd mode pops
      | push => exact absurd mode readable
      | _ => rfl
    have unclaimed : ready.holding (operand.claim? machine.contents) = ready := by
      rw [claim?, if_neg pops, holding, ← prepared.unclaimed]
    rw [read_of_still prepared.toPrepared coded still, unclaimed, reading, claiming_of_still still]
    rcases located : operand.place? machine.contents with _ | register | address
    · exact ⟨machine, rfl, rfl, rfl⟩
    · exact ⟨machine, rfl, rfl, rfl⟩
    · refine ⟨(machine.read address).2, ?_, machine.contents_read address,
        machine.jumped_read address⟩
      rw [value_of_place? located, ← machine.fst_read]
      rfl

/-- PUSH cannot be read. -/
theorem read_of_push (mode : ready.mode = .push) (machine : Machine) :
    ready.read machine = ⟨.error (.refused .push .read), ready, machine⟩ := by
  unfold read
  split <;> simp_all

/-- A constant cannot be written. -/
theorem write_of_constant (constant : ready.mode.isConstant = true) (machine : Machine)
    (new : Word) :
    ready.write machine new = ⟨.error (.refused ready.mode .write), ready, machine⟩ := by
  unfold Mode.isConstant at constant
  unfold write
  split <;> simp_all

/-- A prepared operand that is no constant is written in the cell that it holds, or else in its
place. Only a write to PC sets the mark. -/
theorem exists_store_eq (prepared : Prepared operand ready machine.contents)
    (coded : operand.mode.Coded) (storable : operand.mode.isConstant = false)
    (claims : ready.stackAddress ≠ none → operand.mode = .pop) (new : Word) :
    ∃ written next, ready.write machine new = ⟨.ok (), written, next⟩ ∧
      written.forget = ready.forget ∧
      next.contents = operand.storing ready.stackAddress machine.contents new ∧
      next.registers.jumped =
        (machine.registers.jumped || decide (operand.mode = .programCounter)) := by
  cases claimed : ready.stackAddress with
  | some address =>
    have pops : operand.mode = .pop := claims (by simp [claimed])
    refine ⟨ready, machine.write address new, ?_, rfl, machine.contents_write address new, ?_⟩
    · simp only [write, prepared.mode_eq, pops, popAddress, claimed]
    · simp [pops]
  | none =>
    cases moves : operand.mode.movesStack with
    | false =>
      obtain ⟨place, located⟩ := exists_place? coded storable machine.contents
      obtain ⟨next, writes, contents, jumped⟩ := exists_write_eq prepared moves located new
      refine ⟨ready, next, writes, rfl, ?_, ?_⟩
      · rw [contents, storing, located, claiming_of_still moves]
      · rw [jumped, decide_eq_decide.mpr (place_eq_pc_iff located)]
    | true =>
      let sp := machine.contents (.register .sp)
      cases mode : operand.mode with
      | pop =>
        refine ⟨ready.holding (some sp), (machine.set .sp (sp + 1)).write sp new, ?_, rfl, ?_,
          by simp⟩
        · simp only [write, prepared.mode_eq, mode, popAddress, claimed, holding]
          rfl
        · simp only [Machine.contents_write, Machine.contents_set, storing, place?, mode, claiming,
            ↓reduceIte]
          rfl
      | push =>
        refine ⟨ready.holding (some (sp - 1)), (machine.set .sp (sp - 1)).write (sp - 1) new, ?_,
          rfl, ?_, by simp⟩
        · simp only [write, prepared.mode_eq, mode, pushAddress, claimed, holding]
          rfl
        · simp only [Machine.contents_write, Machine.contents_set, storing, place?, mode, claiming,
            reduceCtorEq, ↓reduceIte]
          rfl
      | _ => rw [mode] at moves; cases moves

end Accesses

end Operand

end Dcpu16
