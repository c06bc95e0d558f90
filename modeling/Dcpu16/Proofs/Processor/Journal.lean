import Dcpu16.Proofs.Machine.Journal
import Dcpu16.Proofs.Machine.Replay
import Dcpu16.Proofs.Processor.Operations

/-!
# What listeners hear

A listener to registers and memory can follow the machine by what it hears
(`Processor.replay_heard`), and hears of changes in unbroken blocks (`Processor.heard_protocol`).
Both rest on what an operation adds to the journal: the announcements of changes, each delivered to
the roll of its subject (`Processor.Operation.exists_followed`,
`Processor.Operation.exists_delivered`).
-/
namespace Dcpu16.Processor

/-! ## Following the machine -/

/-- An operation that neither subscribes one of the names nor replaces the registers leaves the roll
as it is, and what it delivers are the announcements of changes by which a copy of the contents can
be kept up to date. -/
theorem Operation.exists_followed (names : List String) (operation : Operation)
    (unheard : ∀ subject, ∀ name ∈ names, operation ≠ .listen subject name)
    (kept : ∀ registers, operation ≠ .replaceRegisters registers) (processor : Processor) :
    ∃ changes, (operation.apply processor).2.machine.roll names = processor.machine.roll names ∧
      (operation.apply processor).2.machine.journalOf names =
        processor.machine.journalOf names ++
          delivered (processor.machine.roll names) (Change.log changes) ∧
      (operation.apply processor).2.machine.contents =
        processor.machine.contents.replay (Change.log changes) := by
  cases plain : operation.plain with
  | true =>
    obtain ⟨changes, makes⟩ := operation.exists_makes plain processor
    rw [makes]
    exact ⟨changes, Machine.roll_makes _ names changes, Machine.journalOf_makes _ names changes,
      Machine.contents_makes _ changes⟩
  | false =>
    cases operation with
    | listen subject name =>
      have other : name ∉ names := fun inside => unheard subject name inside rfl
      refine ⟨[], processor.machine.roll_listen names other subject, ?_, ?_⟩
      · have same := processor.machine.journalOf_listen names subject name
        exact same.trans (List.append_nil _).symm
      · cases subject <;> rfl
    | replaceRegisters registers => exact absurd rfl (kept registers)
    | _ => cases plain

/-- What a listener hears in a run of operations are the announcements of changes by which a copy of
the contents can be kept up to date. -/
theorem exists_followed {processor : Processor} {name : String}
    (observed : processor.machine.roll [name] = fun _ => [name]) {operations : List Operation}
    (unheard : ∀ subject, .listen subject name ∉ operations)
    (kept : ∀ registers, .replaceRegisters registers ∉ operations) :
    ∃ changes,
      (processor.after operations).machine.heardBy name =
        processor.machine.heardBy name ++ Change.log changes ∧
      (processor.after operations).machine.contents =
        processor.machine.contents.replay (Change.log changes) := by
  induction operations generalizing processor with
  | nil => exact ⟨[], (List.append_nil _).symm, rfl⟩
  | cons operation operations ih =>
    simp only [List.mem_cons, not_or] at unheard kept
    obtain ⟨changes, roll_eq, journal_eq, contents_eq⟩ := operation.exists_followed [name]
      (by simpa using fun subject => Ne.symm (unheard subject).1)
      (fun registers => Ne.symm (kept registers).1) processor
    obtain ⟨later, laterHeard, laterContents⟩ := ih (roll_eq.trans observed)
      (fun subject => (unheard subject).2) (fun registers => (kept registers).2)
    rw [observed] at journal_eq
    refine ⟨changes ++ later, laterHeard.trans ?_, laterContents.trans ?_⟩
    · rw [Machine.heardBy_of_journalOf journal_eq, Change.log_append, List.append_assoc]
    · rw [contents_eq, Change.log_append, Contents.replay_append]

/-- Whoever listens to registers and memory has a complete record of the machine. From a copy of
what the machine has held at first, replaying what has been heard since makes a copy of what it
holds now, after every sequence of operations. A device that goes by the announcements of its window
alone has a copy of the window. -/
theorem replay_heard {processor : Processor} {name : String}
    (observed : processor.machine.ObservedBy name) {operations : List Operation}
    (unheard : ∀ subject, .listen subject name ∉ operations)
    (kept : ∀ registers, .replaceRegisters registers ∉ operations) :
    ∃ log,
      (processor.after operations).machine.heardBy name =
        processor.machine.heardBy name ++ log ∧
      processor.machine.contents.replay log = (processor.after operations).machine.contents ∧
      ∀ (window : Window) (address : Word), window.contains address = true →
        window.reflected (fun address => processor.machine.contents (.cell address)) log address =
          (processor.after operations).machine.contents (.cell address) := by
  obtain ⟨changes, heard, contents⟩ := exists_followed observed.roll_eq unheard kept
  refine ⟨Change.log changes, heard, contents.symm, fun window => ?_⟩
  have start : window.Reflects (fun address => processor.machine.contents (.cell address))
      processor.machine.contents := fun _ _ => rfl
  rw [contents]
  exact start.log changes

/-- A processor with a display that listens to everything. -/
def displayed : Processor :=
  fresh.after [.listen .registers "display", .listen .memory "display"]

/-- The display listens once to each subject. -/
theorem observedBy_displayed : displayed.machine.ObservedBy "display" := by
  intro subject
  cases subject <;> decide

/-- The display follows a session: a program is loaded and run, a key is typed and taken, and a
character is put on the screen. -/
theorem replay_heard_displayed :
    displayed.machine.ObservedBy "display" ∧
      ∃ log,
        (displayed.after [.load [0x7C01, 0x0030], .onMachine (.pressKey 0x41), .run 3,
            .onMachine (.read 0x9000), .onMachine (.write 0x8000 0x48)]).machine.heardBy "display" =
          displayed.machine.heardBy "display" ++ log ∧
        displayed.machine.contents.replay log =
          (displayed.after [.load [0x7C01, 0x0030], .onMachine (.pressKey 0x41), .run 3,
            .onMachine (.read 0x9000), .onMachine (.write 0x8000 0x48)]).machine.contents ∧
        ∀ (window : Window) (address : Word), window.contains address = true →
          window.reflected (fun address => displayed.machine.contents (.cell address)) log address =
            (displayed.after [.load [0x7C01, 0x0030], .onMachine (.pressKey 0x41), .run 3,
              .onMachine (.read 0x9000), .onMachine (.write 0x8000 0x48)]).machine.contents
                (.cell address) :=
  ⟨observedBy_displayed, replay_heard observedBy_displayed (by simp) (by simp)⟩

/-! ## Blocks -/

/-- An operation that subscribes none of the names delivers blocks to the roll, and the roll loses
subjects at most. -/
theorem Operation.exists_delivered (names : List String) (operation : Operation)
    (unheard : ∀ subject, ∀ name ∈ names, operation ≠ .listen subject name)
    (processor : Processor) :
    ∃ changes,
      (∀ subject, (operation.apply processor).2.machine.roll names subject = [] ∨
        (operation.apply processor).2.machine.roll names subject =
          processor.machine.roll names subject) ∧
      (operation.apply processor).2.machine.journalOf names =
        processor.machine.journalOf names ++
          delivered (processor.machine.roll names) (Change.log changes) := by
  by_cases kept : ∀ registers, operation ≠ .replaceRegisters registers
  · obtain ⟨changes, roll_eq, journal_eq, -⟩ :=
      operation.exists_followed names unheard kept processor
    exact ⟨changes, fun subject => .inr (congrFun roll_eq subject), journal_eq⟩
  · simp only [ne_eq, not_forall, not_not] at kept
    obtain ⟨registers, rfl⟩ := kept
    refine ⟨[], fun subject => ?_, (List.append_nil _).symm⟩
    cases subject with
    | registers => exact .inl rfl
    | memory => exact .inr rfl

/-- The journal of the names grows by blocks, each delivered to the roster of its subject, as long
as none of them subscribes again. Subjects may have lost their listeners before or lose them on the
way. -/
theorem exists_delivered (names : List String) (roster : Subject → List String)
    {processor : Processor} (listed : ∀ subject, processor.machine.roll names subject = [] ∨
      processor.machine.roll names subject = roster subject)
    {operations : List Operation}
    (unheard : ∀ subject, ∀ name ∈ names, .listen subject name ∉ operations) :
    ∃ changes, (processor.after operations).machine.journalOf names =
      processor.machine.journalOf names ++ delivered roster (Change.log changes) := by
  induction operations generalizing processor with
  | nil => exact ⟨[], (List.append_nil _).symm⟩
  | cons operation operations ih =>
    simp only [List.mem_cons, not_or] at unheard
    obtain ⟨changes, keeps, journal_eq⟩ := operation.exists_delivered names
      (fun subject name inside => Ne.symm (unheard subject name inside).1) processor
    obtain ⟨heard, delivers⟩ := exists_delivered_eq listed changes
    have listed (subject : Subject) :
        (operation.apply processor).2.machine.roll names subject = [] ∨
          (operation.apply processor).2.machine.roll names subject = roster subject := by
      rcases keeps subject with lost | same
      · exact .inl lost
      · rw [same]
        exact listed subject
    obtain ⟨later, laterDelivers⟩ :=
      ih listed fun subject name inside => (unheard subject name inside).2
    refine ⟨heard ++ later, laterDelivers.trans ?_⟩
    rw [journal_eq, delivers, Change.log_append, delivered_append, List.append_assoc]

/-- A load into the memory, and a load into the processor, announce that the memory is cleared and
then each word of the program. -/
theorem heard_load {processor : Processor} {name : String}
    (observed : processor.machine.ObservedBy name) {program : List Word}
    (fits : program.length ≤ Ram.size) :
    ∃ filled loaded,
      Operation.apply (.onMachine (.load program)) processor = (.done, filled) ∧
      filled.machine.heardBy name =
        processor.machine.heardBy name ++ Change.log (Change.loading program) ∧
      Operation.apply (.load program) processor = (.done, loaded) ∧
      loaded.machine.heardBy name = processor.machine.heardBy name ++
        ([.register .reset, .memory .reset] ++ Change.log (Change.loading program)) := by
  have makes (changes : List Change) : (processor.machine.makes changes).heardBy name =
      processor.machine.heardBy name ++ Change.log changes := by
    have grows := processor.machine.journalOf_makes [name] changes
    rw [observed.roll_eq] at grows
    exact Machine.heardBy_of_journalOf grows
  refine ⟨{ processor with machine := processor.machine.makes (Change.loading program) },
    ⟨processor.machine.makes ([.clearRegisters, .clearMemory] ++ Change.loading program),
      .running, 0, false, processor.decoder⟩, ?_, makes _, ?_, makes _⟩
  · simp only [Operation.apply, Machine.Operation.apply, Machine.load_of_le _ fits, Answer.ofLoad]
  · simp only [Operation.apply, load_of_le _ fits, Answer.ofLoad]

/-- A listener that is new to a subject hears from then on all announcements of the subject, each of
them once and directly behind one who has listened before. -/
theorem heard_newcomer {processor : Processor} {subject : Subject} {earlier newcomer : String}
    (listens : (processor.machine.listeners subject).names.count earlier = 1)
    (new : ∀ asked, newcomer ∉ (processor.machine.listeners asked).names)
    {operations : List Operation}
    (unheard : ∀ asked, ∀ name ∈ [earlier, newcomer], .listen asked name ∉ operations) :
    ∃ log,
      (processor.after (.listen subject newcomer :: operations)).machine.heardBy newcomer =
        processor.machine.heardBy newcomer ++ log ∧
      ((processor.after (.listen subject newcomer :: operations)).machine.journalOf
          [earlier, newcomer]).filter (fun entry => entry.2.subject = subject) =
        (processor.machine.journalOf [earlier, newcomer]).filter
            (fun entry => entry.2.subject = subject) ++
          log.flatMap fun announcement => [(earlier, announcement), (newcomer, announcement)] := by
  let joined := (Operation.apply (.listen subject newcomer) processor).2
  let names := [earlier, newcomer]
  have inside : newcomer ∈ names := by simp [names]
  have here : joined.machine.roll names subject = names :=
    processor.machine.roll_behind listens (new subject)
  have unchanged (names : List String) :
      joined.machine.journalOf names = processor.machine.journalOf names :=
    processor.machine.journalOf_listen names subject newcomer
  obtain ⟨changes, delivers⟩ :=
    exists_delivered names (joined.machine.roll names) (fun _ => .inr rfl) unheard
  have after_eq : processor.after (.listen subject newcomer :: operations) =
      joined.after operations := rfl
  refine ⟨(Change.log changes).filter (·.subject = subject), ?_, ?_⟩
  · -- The newcomer is on the roll of this subject alone.
    have mine : (fun asked => (joined.machine.roll names asked).filter (· ∈ [newcomer])) =
        fun asked => if asked = subject then [newcomer] else [] := by
      simp only [Machine.filter_roll _ _ inside]
      exact processor.machine.roll_newcomer new subject
    have grows : (joined.after operations).machine.journalOf [newcomer] =
        processor.machine.journalOf [newcomer] ++
          delivered (fun _ => [newcomer]) ((Change.log changes).filter (·.subject = subject)) := by
      rw [← Machine.filter_journalOf _ names inside, delivers, List.filter_append,
        Machine.filter_journalOf _ names inside, unchanged, filter_delivered, mine,
        delivered_of_subject (fun asked other => if_neg other), if_pos rfl]
      rfl
    exact Machine.heardBy_of_journalOf grows
  · rw [after_eq, delivers, List.filter_append, filter_subject_delivered, here, unchanged]
    rfl

/-- The protocol of announcements. What a listener to registers and memory hears in a sequence of
operations are the blocks of changes, one after the other. A load of a program that fits announces
that the memory is cleared and then each word at its address; a program that does not fit is refused
without an announcement. Who begins to listen on the way hears from then on each announcement of its
subject once, behind those who have listened before. -/
theorem heard_protocol {processor : Processor} {name : String}
    (observed : processor.machine.ObservedBy name) :
    (∀ operations : List Operation, (∀ subject, .listen subject name ∉ operations) →
      ∃ changes : List Change, (processor.after operations).machine.heardBy name =
        processor.machine.heardBy name ++ changes.flatMap Change.announcements) ∧
    (∀ program : List Word, program.length ≤ Ram.size →
      ∃ filled loaded log,
        log = .memory .reset :: (program.mapIdx fun index word =>
          Change.cellBlock (.ofNat index) word ++
            [.memory (.loaded (.ofNat index) word)]).flatten ∧
        Operation.apply (.onMachine (.load program)) processor = (.done, filled) ∧
        filled.machine.heardBy name = processor.machine.heardBy name ++ log ∧
        Operation.apply (.load program) processor = (.done, loaded) ∧
        loaded.machine.heardBy name = processor.machine.heardBy name ++
          ([.register .reset, .memory .reset] ++ log)) ∧
    (∀ program : List Word, Ram.size < program.length →
      Operation.apply (.onMachine (.load program)) processor =
        (.refused (.tooLarge program.length), processor) ∧
      Operation.apply (.load program) processor =
        (.refused (.tooLarge program.length), processor)) ∧
    (∀ (subject : Subject) (earlier newcomer : String) (operations : List Operation),
      (processor.machine.listeners subject).names.count earlier = 1 →
      (∀ asked, newcomer ∉ (processor.machine.listeners asked).names) →
      (∀ asked, ∀ name ∈ [earlier, newcomer], .listen asked name ∉ operations) →
      ∃ log,
        (processor.after (.listen subject newcomer :: operations)).machine.heardBy newcomer =
          processor.machine.heardBy newcomer ++ log ∧
        ((processor.after (.listen subject newcomer :: operations)).machine.journalOf
            [earlier, newcomer]).filter (fun entry => entry.2.subject = subject) =
          (processor.machine.journalOf [earlier, newcomer]).filter
              (fun entry => entry.2.subject = subject) ++
            log.flatMap fun announcement =>
              [(earlier, announcement), (newcomer, announcement)]) := by
  refine ⟨fun operations unheard => ?_, fun program fits => ?_, fun program exceeds => ?_,
    fun subject earlier newcomer operations listens new unheard =>
      heard_newcomer listens new unheard⟩
  · have roll_eq := observed.roll_eq
    obtain ⟨changes, grows⟩ := exists_delivered [name] (fun _ => [name])
      (fun subject => .inr (congrFun roll_eq subject)) (by simpa using unheard)
    exact ⟨changes, Machine.heardBy_of_journalOf grows⟩
  · obtain ⟨filled, loaded, fills, heard, loads, heardToo⟩ := heard_load observed fits
    rw [Change.log_loading] at heard heardToo
    exact ⟨filled, loaded, _, rfl, fills, heard, loads, heardToo⟩
  · constructor
    · simp only [Operation.apply, Machine.Operation.apply, Machine.load_of_lt _ exceeds,
        Answer.ofLoad]
    · simp only [Operation.apply, load_of_lt _ exceeds, Answer.ofLoad]

/-- The display hears a session in blocks, and a load of two words in its order. A program that is
too long is refused, and a screen that joins the display hears of the memory behind it. -/
theorem heard_protocol_displayed :
    displayed.machine.ObservedBy "display" ∧
      (∃ changes : List Change,
        (displayed.after [.load [0x7C01, 0x0030], .replaceRegisters { a := 7 }, .run 3,
            .onMachine (.read 0x9000)]).machine.heardBy "display" =
          displayed.machine.heardBy "display" ++ changes.flatMap Change.announcements) ∧
      (∃ filled loaded log,
        log = .memory .reset :: ([0x7C01, 0x0030].mapIdx fun index word =>
          Change.cellBlock (.ofNat index) word ++
            [.memory (.loaded (.ofNat index) word)]).flatten ∧
        Operation.apply (.onMachine (.load [0x7C01, 0x0030])) displayed = (.done, filled) ∧
        filled.machine.heardBy "display" = displayed.machine.heardBy "display" ++ log ∧
        Operation.apply (.load [0x7C01, 0x0030]) displayed = (.done, loaded) ∧
        loaded.machine.heardBy "display" = displayed.machine.heardBy "display" ++
          ([.register .reset, .memory .reset] ++ log)) ∧
      (Operation.apply (.load (List.replicate 65537 0)) displayed).2 = displayed ∧
      ∃ log,
        (displayed.after [.listen .memory "screen", .onMachine (.write 0x8000 0x48),
            .run 3]).machine.heardBy "screen" = displayed.machine.heardBy "screen" ++ log ∧
        ((displayed.after [.listen .memory "screen", .onMachine (.write 0x8000 0x48),
            .run 3]).machine.journalOf ["display", "screen"]).filter
              (fun entry => entry.2.subject = .memory) =
          (displayed.machine.journalOf ["display", "screen"]).filter
              (fun entry => entry.2.subject = .memory) ++
            log.flatMap fun announcement =>
              [("display", announcement), ("screen", announcement)] := by
  obtain ⟨blocks, loads, refuses, joins⟩ := heard_protocol observedBy_displayed
  have long : Ram.size < (List.replicate 65537 (0 : Word)).length := by
    rw [List.length_replicate]
    decide
  have refused := (refuses (List.replicate 65537 0) long).2
  refine ⟨observedBy_displayed, blocks _ (by simp), loads _ (by decide), by rw [refused],
    joins .memory "display" "screen" _ (by decide) (fun asked => ?_) (by simp)⟩
  cases asked <;> decide

end Dcpu16.Processor
