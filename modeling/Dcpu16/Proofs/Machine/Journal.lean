import Dcpu16.Proofs.Machine.Operations

/-!
# Who is told

The journal holds everything that listeners have been told. What it holds for some of them
(`Machine.journalOf`) grows by the announcements of changes, each delivered to those of them who are
on the roll of its subject (`Machine.journalOf_makes`). A subscription puts a name at the end of the
roll (`Machine.roll_listen_self`).
-/
namespace Dcpu16

/-- The subject of a change: all that is announced of it has this subject. -/
def Change.subject : Change → Subject
  | .set _ _ | .mark _ | .clearRegisters => .registers
  | .write _ _ | .program _ _ | .clearMemory => .memory

/-- A block of announcements has one subject. -/
theorem Change.subject_announcements (change : Change) :
    ∀ announcement ∈ change.announcements, announcement.subject = change.subject := by
  have window (address value : Word) :
      ∀ announcement ∈ windowBlock address value, announcement.subject = .memory := by
    unfold windowBlock
    split_ifs <;> simp [Announcement.subject]
  have cell (address value : Word) :
      ∀ announcement ∈ cellBlock address value, announcement.subject = .memory := by
    simp only [cellBlock, List.mem_append, List.mem_singleton]
    rintro announcement ((rfl | inside) | rfl)
    · rfl
    · exact window address value announcement inside
    · rfl
  cases change with
  | write address value => exact cell address value
  | program address value =>
    simp only [announcements, List.mem_append, List.mem_singleton]
    rintro announcement (inside | rfl)
    · exact cell address value announcement inside
    · rfl
  | set | mark | clearRegisters | clearMemory =>
    simp [announcements, subject, Announcement.subject]

/-- What is delivered of a row of announcements: each of them to all on the roll of its subject, in
their order. -/
def delivered (roll : Subject → List String) (log : List Announcement) :
    List (String × Announcement) :=
  log.flatMap fun announcement =>
    (roll announcement.subject).map fun name => (name, announcement)

section Delivered

variable (roll : Subject → List String)

/-- What is delivered of announcements and then of others. -/
theorem delivered_append (log later : List Announcement) :
    delivered roll (log ++ later) = delivered roll log ++ delivered roll later :=
  List.flatMap_append

/-- What is delivered to some of the names. -/
theorem filter_delivered (names : List String) (log : List Announcement) :
    (delivered roll log).filter (fun entry => entry.1 ∈ names) =
      delivered (fun subject => (roll subject).filter (· ∈ names)) log := by
  simp only [delivered, List.filter_flatMap, List.filter_map]
  rfl

/-- What is delivered of one subject. -/
theorem filter_subject_delivered (subject : Subject) (log : List Announcement) :
    (delivered roll log).filter (fun entry => entry.2.subject = subject) =
      (log.filter (·.subject = subject)).flatMap fun announcement =>
        (roll subject).map fun name => (name, announcement) := by
  induction log with
  | nil => rfl
  | cons announcement log ih =>
    have first : delivered roll (announcement :: log) =
        (roll announcement.subject).map (fun name => (name, announcement)) ++
          delivered roll log := rfl
    rw [first, List.filter_append, ih, List.filter_map]
    by_cases here : announcement.subject = subject
    · simp [here, Function.comp_def]
    · simp [here, Function.comp_def]

/-- What is delivered when one subject has listeners. -/
theorem delivered_of_subject {roll : Subject → List String} {subject : Subject}
    (only : ∀ asked, asked ≠ subject → roll asked = []) (log : List Announcement) :
    delivered roll log = (log.filter (·.subject = subject)).flatMap fun announcement =>
      (roll subject).map fun name => (name, announcement) := by
  rw [← filter_subject_delivered, List.filter_eq_self.mpr]
  intro entry inside
  obtain ⟨announcement, -, told⟩ := List.mem_flatMap.mp inside
  obtain ⟨name, listed, rfl⟩ := List.mem_map.mp told
  have here : announcement.subject = subject := by
    by_contra other
    rw [only _ other] at listed
    cases listed
  exact decide_eq_true here

/-- A listener who is on the roll of all subjects is told everything. -/
theorem delivered_single (name : String) (log : List Announcement) :
    delivered (fun _ => [name]) log = log.map fun announcement => (name, announcement) := by
  simp [delivered, ← List.map_eq_flatMap]

/-- When some subjects have lost their listeners, what is delivered are the blocks of the other
subjects. -/
theorem exists_delivered_eq {left roster : Subject → List String}
    (lost : ∀ subject, left subject = [] ∨ left subject = roster subject) (changes : List Change) :
    ∃ heard, delivered left (Change.log changes) = delivered roster (Change.log heard) := by
  have block (change : Change) (roll : Subject → List String) :
      delivered roll change.announcements = change.announcements.flatMap fun announcement =>
        (roll change.subject).map fun name => (name, announcement) :=
    List.flatMap_congr fun announcement inside => by
      rw [change.subject_announcements announcement inside]
  induction changes with
  | nil => exact ⟨[], rfl⟩
  | cons change changes ih =>
    obtain ⟨heard, delivers⟩ := ih
    rw [Change.log_cons, delivered_append, delivers, block]
    rcases lost change.subject with silent | same
    · refine ⟨heard, ?_⟩
      simp [silent]
    · refine ⟨change :: heard, ?_⟩
      rw [same, Change.log_cons, delivered_append, block]

end Delivered

namespace Machine

/-- Those of the names who listen to a subject, in the order in which they are told, and as often as
they are told. -/
def roll (machine : Machine) (names : List String) (subject : Subject) : List String :=
  (machine.listeners subject).names.filter (· ∈ names)

/-- What has been delivered to these names. -/
def journalOf (machine : Machine) (names : List String) : List (String × Announcement) :=
  machine.journal.toList.filter fun entry => entry.1 ∈ names

/-- What a listener has heard. -/
def heardBy (machine : Machine) (name : String) : List Announcement :=
  (machine.journalOf [name]).map Prod.snd

/-- A listener has subscribed once to the registers and once to the memory. -/
def ObservedBy (machine : Machine) (name : String) : Prop :=
  ∀ subject, (machine.listeners subject).names.count name = 1

section Journal

variable (machine : Machine) (names : List String)

/-- Who is told of an announcement are the listeners to its subject. -/
theorem told_eq_delivered (log : List Announcement) :
    machine.told log = delivered (fun subject => (machine.listeners subject).names) log := by
  simp only [told, audience_eq]
  rfl

/-- Changes leave the roll as it is. -/
theorem roll_makes (changes : List Change) :
    (machine.makes changes).roll names = machine.roll names := by
  have audience := machine.audience_makes changes
  funext subject
  cases subject with
  | registers =>
    have listeners : (machine.makes changes).registerListeners = machine.registerListeners :=
      congrFun audience (.register .reset)
    simp only [roll, Machine.listeners, listeners]
  | memory =>
    have listeners : (machine.makes changes).memoryListeners = machine.memoryListeners :=
      congrFun audience (.memory .reset)
    simp only [roll, Machine.listeners, listeners]

/-- Changes are delivered to the roll. -/
theorem journalOf_makes (changes : List Change) :
    (machine.makes changes).journalOf names =
      machine.journalOf names ++ delivered (machine.roll names) (Change.log changes) := by
  rw [journalOf, journal_makes, List.filter_append, told_eq_delivered, filter_delivered]
  rfl

/-- Another listener leaves the roll as it is. -/
theorem roll_listen {name : String} (other : name ∉ names) (subject : Subject) :
    (machine.listen subject name).roll names = machine.roll names := by
  funext asked
  cases subject <;> cases asked <;>
    simp [roll, listen, listeners, listenToRegisters, listenToMemory, Listeners.subscribe, other]

/-- A new listener is at the end of the roll of its subject. -/
theorem roll_listen_self {name : String} (inside : name ∈ names) (subject asked : Subject) :
    (machine.listen subject name).roll names asked =
      if asked = subject then machine.roll names asked ++ [name] else machine.roll names asked := by
  cases subject <;> cases asked <;>
    simp [roll, listen, listeners, listenToRegisters, listenToMemory, Listeners.subscribe, inside]

/-- A subscription delivers nothing. -/
theorem journalOf_listen (subject : Subject) (name : String) :
    (machine.listen subject name).journalOf names = machine.journalOf names := by
  cases subject <;> rfl

/-- The roll of a single name has it as often as it has subscribed. -/
theorem roll_single (name : String) (subject : Subject) :
    machine.roll [name] subject =
      List.replicate ((machine.listeners subject).names.count name) name := by
  simp only [roll, List.mem_singleton]
  exact List.filter_eq name

/-- Who listens to nothing so far is on the roll of the first subject that it listens to, and on no
other. -/
theorem roll_newcomer {newcomer : String}
    (new : ∀ asked, newcomer ∉ (machine.listeners asked).names) (subject : Subject) :
    (machine.listen subject newcomer).roll [newcomer] =
      fun asked => if asked = subject then [newcomer] else [] := by
  funext asked
  have absent : machine.roll [newcomer] asked = [] := by
    rw [roll_single, List.count_eq_zero_of_not_mem (new asked)]
    rfl
  rw [roll_listen_self _ _ (List.mem_singleton_self newcomer), absent]
  rfl

/-- Who is new to a subject is told behind one who has listened before. -/
theorem roll_behind {subject : Subject} {earlier newcomer : String}
    (listens : (machine.listeners subject).names.count earlier = 1)
    (new : newcomer ∉ (machine.listeners subject).names) :
    (machine.listen subject newcomer).roll [earlier, newcomer] subject = [earlier, newcomer] := by
  have before : machine.roll [earlier, newcomer] subject = machine.roll [earlier] subject := by
    apply List.filter_congr
    intro name listens
    have other : name ≠ newcomer := by
      rintro rfl
      exact new listens
    simp [other]
  rw [roll_listen_self _ _ (by simp), if_pos rfl, before, roll_single, listens]
  rfl

/-- The roll of an observer has its name for both subjects. -/
theorem ObservedBy.roll_eq {machine : Machine} {name : String}
    (observed : machine.ObservedBy name) :
    machine.roll [name] = fun _ => [name] := by
  funext subject
  rw [roll_single, observed subject]
  rfl

/-- What a listener who is on the roll of both subjects hears of a row of announcements. -/
theorem heardBy_of_journalOf {machine later : Machine} {name : String} {log : List Announcement}
    (grows : later.journalOf [name] = machine.journalOf [name] ++ delivered (fun _ => [name]) log) :
    later.heardBy name = machine.heardBy name ++ log := by
  rw [heardBy, grows, delivered_single]
  simp [heardBy]

/-- Being the name is being one of any names with it and being the name. -/
theorem mem_single_and_mem {name : String} (inside : name ∈ names) (other : String) :
    (decide (other ∈ [name]) && decide (other ∈ names)) = decide (other ∈ [name]) := by
  by_cases here : other = name
  · simp [here, inside]
  · simp [here]

/-- What has been delivered to a name is a part of what has been delivered to any names with it. -/
theorem filter_journalOf {name : String} (inside : name ∈ names) :
    (machine.journalOf names).filter (fun entry => entry.1 ∈ [name]) =
      machine.journalOf [name] := by
  rw [journalOf, List.filter_filter]
  exact List.filter_congr fun entry _ => mem_single_and_mem names inside entry.1

/-- The roll of a name is a part of the roll of any names with it. -/
theorem filter_roll {name : String} (inside : name ∈ names) (subject : Subject) :
    (machine.roll names subject).filter (· ∈ [name]) = machine.roll [name] subject := by
  rw [roll, List.filter_filter]
  exact List.filter_congr fun other _ => mem_single_and_mem names inside other

end Journal

end Machine

end Dcpu16
