import Ether2Ser.Memory.Ring
import Ether2Ser.System.Log
import Mathlib.Logic.Function.Iterate
import Mathlib.Logic.Relation

open Memory

namespace ether2ser.log

/-- The lines whose call has found a free slot, in the order of the calls. -/
def LogSystem.accepted (system : LogSystem) : List LogLine := (system.outcomes.filter (·.2)).map (·.1)

/-- The calls that have found no free slot. -/
def LogSystem.refused (system : LogSystem) : Nat := system.outcomes.countP (!·.2)

/-- The line of a call that has not looked for a slot yet. -/
def LogWriter.undecided : LogWriter → List LogLine
  | .formatted _ line => [line]
  | .loaded _ line _ => [line]
  | _ => []

/-- The line of a call that has found a slot and not published it yet. -/
def LogWriter.inFlight : LogWriter → List LogLine
  | .free _ line _ _ => [line]
  | .stored _ line _ => [line]
  | _ => []

/-- How many of the pending lines core 1 has printed already. -/
def LogDrainer.done : LogDrainer → Nat
  | .printed _ => 1
  | _ => 0

/-- The local variables of core 0 agree with the queue. -/
def LogWriter.Agrees (log : GlobalLogState) (pending : List LogLine) : LogWriter → Prop
  | .loaded _ _ head => head = log.head
  | .free _ _ head next =>
    head = log.head ∧ next = advance log.head ∧ pending.length + 1 < LOG_QUEUE_DEPTH
  | .stored _ line next =>
    log.queue[log.head]? = some line ∧ next = advance log.head ∧ pending.length + 1 < LOG_QUEUE_DEPTH
  | _ => True

/-- The local variables of core 1 agree with the queue. A head it has read may
be that of an earlier time. -/
def LogDrainer.Agrees (log : GlobalLogState) (pending : List LogLine) : LogDrainer → Prop
  | .tailRead tail => tail = log.tail
  | .headRead head => ∃ count ≤ pending.length, head = (log.tail + count) % LOG_QUEUE_DEPTH
  | .entered => pending ≠ []
  | .loaded tail => tail = log.tail ∧ pending ≠ []
  | .printed tail => tail = log.tail ∧ pending ≠ []
  | _ => True

/-- The slots between tail and head hold the pending lines, and every accepted
line has been printed, is pending, or is about to be published. -/
structure LogInvariant (system : LogSystem) (pending : List LogLine) : Prop where
  ring : RingHolds LOG_QUEUE_DEPTH system.state.queue system.state.tail pending
  head_eq : system.state.head = ringEnd LOG_QUEUE_DEPTH system.state.tail pending
  writer : system.writer.Agrees system.state pending
  drainer : system.drainer.Agrees system.state pending
  accepted : system.accepted = system.printed ++ (pending.drop system.drainer.done ++ system.writer.inFlight)
  calls : system.calls = system.outcomes.map (·.1) ++ system.writer.undecided
  dropped : system.state.dropped + system.taken = UInt32.ofNat system.refused

theorem advance_eq (index : Nat) : advance index = (index + 1) % LOG_QUEUE_DEPTH :=
  Nat.and_two_pow_sub_one_eq_mod (index + 1) 7

theorem logInvariant_start : LogInvariant .start [] where
  ring := ringHolds_nil List.length_replicate (by decide)
  head_eq := rfl
  writer := trivial
  drainer := trivial
  accepted := rfl
  calls := rfl
  dropped := rfl

section

variable {system : LogSystem} {pending : List LogLine}

theorem accepted_concat (outcomes : List (LogLine × Bool)) (line : LogLine) (found : Bool) :
    ((outcomes ++ [(line, found)]).filter (·.2)).map (·.1) =
      (outcomes.filter (·.2)).map (·.1) ++ (if found then [line] else []) := by
  cases found <;> simp

/-- A call begins. -/
theorem LogInvariant.log_write (h : LogInvariant system pending) (hidle : system.writer = .outside) (call : LogCall) :
    LogInvariant (log_write system call) pending := by
  unfold log.log_write
  split
  · exact h
  · split
    · exact h
    · have hcalls := h.calls
      have haccepted := h.accepted
      rw [hidle] at hcalls haccepted
      exact
        { h with
          writer := trivial
          accepted := haccepted
          calls := by
            simp only [LogWriter.undecided, List.append_nil] at hcalls ⊢
            rw [hcalls] }

/-- Core 0 looks at the tail: the slot of its line is free unless all but one
of the slots are taken. -/
theorem LogInvariant.log_write_loaded (h : LogInvariant system pending) {level : LogLevel} {line : LogLine} {head : Nat}
    (hwriter : system.writer = .loaded level line head) : LogInvariant (log_write_step system) pending := by
  have hagrees := h.writer
  have haccepted := h.accepted
  have hcalls := h.calls
  have hdropped := h.dropped
  rw [hwriter] at hagrees haccepted hcalls
  obtain rfl : head = system.state.head := hagrees
  have hfull : advance system.state.head = system.state.tail ↔ pending.length + 1 = LOG_QUEUE_DEPTH := by
    rw [advance_eq, h.head_eq]
    exact ringEnd_succ_eq_first_iff h.ring
  have hreserved := h.ring.reserved
  simp only [LogSystem.accepted, LogWriter.inFlight, List.append_nil] at haccepted
  simp only [LogWriter.undecided] at hcalls
  simp only [LogSystem.refused] at hdropped
  unfold log_write_step
  simp only [hwriter]
  split
  · rename_i hnext
    exact
      { ring := h.ring
        head_eq := h.head_eq
        writer := trivial
        drainer := h.drainer
        accepted := by
          simp only [LogSystem.accepted, LogWriter.inFlight, List.append_nil, accepted_concat, Bool.false_eq_true,
            if_false]
          exact haccepted
        calls := by simpa [LogWriter.undecided] using hcalls
        dropped := by
          simp only [LogSystem.refused, List.countP_append, List.countP_singleton, Bool.not_false, if_true]
          rw [UInt32.ofNat_add, ← hdropped, UInt32.add_assoc, UInt32.add_comm 1, ← UInt32.add_assoc]
          rfl }
  · rename_i hnext
    rw [hfull] at hnext
    exact
      { ring := h.ring
        head_eq := h.head_eq
        writer := ⟨rfl, rfl, by omega⟩
        drainer := h.drainer
        accepted := by
          simp only [LogSystem.accepted, LogWriter.inFlight, accepted_concat, if_true]
          rw [haccepted, List.append_assoc]
        calls := by simpa [LogWriter.undecided] using hcalls
        dropped := by
          simp only [LogSystem.refused, List.countP_append, List.countP_singleton, Bool.not_true, Bool.false_eq_true,
            if_false, Nat.add_zero]
          exact hdropped }

/-- Core 0 writes its line into the free slot, which holds no pending line. -/
theorem LogInvariant.log_write_free (h : LogInvariant system pending) {level : LogLevel} {line : LogLine}
    {head next : Nat} (hwriter : system.writer = .free level line head next) :
    LogInvariant (log_write_step system) pending := by
  have hagrees := h.writer
  have haccepted := h.accepted
  have hcalls := h.calls
  rw [hwriter] at hagrees haccepted hcalls
  obtain ⟨rfl, hnext, hroom⟩ := hagrees
  have hhead := h.head_eq
  unfold log_write_step
  simp only [hwriter]
  exact
    { ring := by
        rw [hhead]
        exact h.ring.set line
      head_eq := hhead
      writer := by
        refine ⟨?_, hnext, hroom⟩
        rw [hhead]
        exact h.ring.getElem?_set line
      drainer := h.drainer
      accepted := haccepted
      calls := hcalls
      dropped := h.dropped }

theorem LogDrainer.Agrees.concat {log : GlobalLogState} {drainer : LogDrainer} (h : drainer.Agrees log pending)
    (head : Nat) (line : LogLine) : drainer.Agrees { log with head := head } (pending ++ [line]) := by
  cases drainer with
  | outside => trivial
  | checking => trivial
  | tailRead tail => exact h
  | headRead head =>
    obtain ⟨count, hcount, hhead⟩ := h
    exact ⟨count, by rw [List.length_append]; omega, hhead⟩
  | entered => simp [LogDrainer.Agrees]
  | loaded tail => exact ⟨h.1, by simp⟩
  | printed tail => exact ⟨h.1, by simp⟩

theorem LogDrainer.Agrees.done_le {log : GlobalLogState} {drainer : LogDrainer} (h : drainer.Agrees log pending) :
    drainer.done ≤ pending.length := by
  cases drainer with
  | printed tail => exact List.length_pos_iff.mpr h.2
  | outside | checking | tailRead | headRead | entered | loaded => exact Nat.zero_le _

/-- Core 0 publishes its line. -/
theorem LogInvariant.log_write_stored (h : LogInvariant system pending) {level : LogLevel} {line : LogLine} {next : Nat}
    (hwriter : system.writer = .stored level line next) : LogInvariant (log_write_step system) (pending ++ [line]) := by
  have hagrees := h.writer
  have haccepted := h.accepted
  have hcalls := h.calls
  rw [hwriter] at hagrees haccepted hcalls
  obtain ⟨hslot, hnext, hroom⟩ := hagrees
  have hhead := h.head_eq
  unfold log_write_step
  simp only [hwriter]
  exact
    { ring := h.ring.concat hroom (hhead ▸ hslot)
      head_eq := by
        simp only
        rw [ringEnd_concat, ← hhead, hnext, advance_eq]
      writer := trivial
      drainer := h.drainer.concat next line
      accepted := by
        simp only [LogWriter.inFlight, List.append_nil] at haccepted ⊢
        rw [List.drop_append_of_le_length h.drainer.done_le]
        exact haccepted
      calls := hcalls
      dropped := h.dropped }

theorem LogDrainer.Agrees.of_tail {log log' : GlobalLogState} {drainer : LogDrainer}
    (h : drainer.Agrees log pending) (htail : log'.tail = log.tail) : drainer.Agrees log' pending := by
  cases drainer with
  | outside | checking => trivial
  | entered => exact h
  | tailRead | headRead | loaded | printed =>
    simp only [LogDrainer.Agrees, htail] at h ⊢
    exact h

/-- Core 0 leaves a call that has published its line. -/
theorem LogInvariant.log_write_published (h : LogInvariant system pending) {level : LogLevel} {next : Nat}
    (hwriter : system.writer = .published level next) (high_water_mark : UInt32) (log_emitted : Bool) :
    LogInvariant
      { system with
        state := { system.state with high_water_mark, log_emitted }
        writer := .outside } pending := by
  have haccepted := h.accepted
  have hcalls := h.calls
  rw [hwriter] at haccepted hcalls
  exact
    { ring := h.ring
      head_eq := h.head_eq
      writer := trivial
      drainer := h.drainer.of_tail rfl
      accepted := haccepted
      calls := hcalls
      dropped := h.dropped }

theorem LogInvariant.log_write_step (h : LogInvariant system pending) :
    ∃ pending', LogInvariant (log_write_step system) pending' := by
  cases hwriter : system.writer with
  | outside =>
    refine ⟨pending, ?_⟩
    unfold log.log_write_step
    simp only [hwriter]
    exact h
  | formatted level line =>
    refine ⟨pending, ?_⟩
    have haccepted := h.accepted
    have hcalls := h.calls
    rw [hwriter] at haccepted hcalls
    unfold log.log_write_step
    simp only [hwriter]
    exact { h with writer := rfl, accepted := haccepted, calls := hcalls }
  | loaded level line head => exact ⟨pending, h.log_write_loaded hwriter⟩
  | free level line head next => exact ⟨pending, h.log_write_free hwriter⟩
  | stored level line next => exact ⟨pending ++ [line], h.log_write_stored hwriter⟩
  | published level next =>
    refine ⟨pending, ?_⟩
    unfold log.log_write_step
    simp only [hwriter]
    exact h.log_write_published hwriter _ _

/-- Core 1 prints the oldest pending line. -/
theorem LogInvariant.log_core1_drain_loaded (h : LogInvariant system pending) {tail : Nat} (headFirst : Bool)
    (hdrainer : system.drainer = .loaded tail) : LogInvariant (log_core1_drain_step headFirst system) pending := by
  have hagrees := h.drainer
  have haccepted := h.accepted
  rw [hdrainer] at hagrees haccepted
  obtain ⟨rfl, hsome⟩ := hagrees
  obtain ⟨line, rest, rfl⟩ := List.exists_cons_of_ne_nil hsome
  have hline : system.state.queue.getD system.state.tail [] = line := by
    rw [List.getD_eq_getElem?_getD, h.ring.head, Option.getD_some]
  unfold log_core1_drain_step
  simp only [hdrainer]
  exact
    { h with
      drainer := ⟨rfl, hsome⟩
      accepted := by
        simp only [LogDrainer.done, List.drop_zero, List.drop_one, List.tail_cons, hline] at haccepted ⊢
        rw [List.append_assoc]
        exact haccepted }

theorem LogWriter.Agrees.tail {log : GlobalLogState} {writer : LogWriter} {line : LogLine} {rest : List LogLine}
    (h : writer.Agrees log (line :: rest)) (tail : Nat) : writer.Agrees { log with tail := tail } rest := by
  cases writer with
  | outside => trivial
  | formatted level line => trivial
  | loaded level line head => exact h
  | free level line head next => exact ⟨h.1, h.2.1, Nat.lt_of_succ_lt h.2.2⟩
  | stored level line next => exact ⟨h.1, h.2.1, Nat.lt_of_succ_lt h.2.2⟩
  | published level next => trivial

/-- Core 1 gives the slot of a printed line back. -/
theorem LogInvariant.log_core1_drain_printed (h : LogInvariant system pending) {tail : Nat} (headFirst : Bool)
    (hdrainer : system.drainer = .printed tail) :
    LogInvariant (log_core1_drain_step headFirst system) pending.tail := by
  have hagrees := h.drainer
  have haccepted := h.accepted
  have hwriter := h.writer
  rw [hdrainer] at hagrees haccepted
  obtain ⟨rfl, hsome⟩ := hagrees
  obtain ⟨line, rest, rfl⟩ := List.exists_cons_of_ne_nil hsome
  unfold log_core1_drain_step
  simp only [hdrainer]
  exact
    { ring := by
        simp only [advance_eq]
        exact h.ring.tail
      head_eq := by
        simp only [advance_eq]
        rw [h.head_eq, ringEnd_cons]
        rfl
      writer := hwriter.tail _
      drainer := trivial
      accepted := haccepted
      calls := h.calls
      dropped := h.dropped }

/-- The loop condition, whichever side of it has been read first. -/
theorem LogInvariant.entered (h : LogInvariant system pending) (hdone : system.drainer.done = 0) {enters : Prop}
    [Decidable enters] (hsome : enters → pending ≠ []) :
    LogInvariant { system with drainer := if enters then .entered else .outside } pending := by
  have haccepted := h.accepted
  rw [hdone] at haccepted
  split
  · rename_i hloop
    exact { h with drainer := hsome hloop, accepted := haccepted }
  · exact { h with drainer := trivial, accepted := haccepted }

/-- The lines that are still pending after the next step of core 1. -/
def LogDrainer.rest (pending : List LogLine) : LogDrainer → List LogLine
  | .printed _ => pending.tail
  | _ => pending

theorem LogInvariant.log_core1_drain_step (h : LogInvariant system pending) (headFirst : Bool) :
    LogInvariant (log_core1_drain_step headFirst system) (system.drainer.rest pending) := by
  have hempty := ringEnd_eq_first_iff h.ring
  have hagrees := h.drainer
  have haccepted := h.accepted
  cases hdrainer : system.drainer with
  | outside =>
    unfold log.log_core1_drain_step
    simp only [hdrainer]
    exact h
  | checking =>
    rw [hdrainer] at haccepted
    unfold log.log_core1_drain_step
    simp only [hdrainer]
    cases headFirst with
    | false => exact { h with drainer := rfl, accepted := haccepted }
    | true => exact { h with drainer := ⟨pending.length, Nat.le_refl _, h.head_eq⟩, accepted := haccepted }
  | tailRead tail =>
    rw [hdrainer] at hagrees
    obtain rfl : tail = system.state.tail := hagrees
    unfold log.log_core1_drain_step
    simp only [hdrainer]
    apply h.entered (by rw [hdrainer]; rfl)
    rintro hne rfl
    exact hne (h.head_eq.trans (hempty.mpr rfl)).symm
  | headRead head =>
    rw [hdrainer] at hagrees
    obtain ⟨count, hcount, rfl⟩ := hagrees
    unfold log.log_core1_drain_step
    simp only [hdrainer]
    apply h.entered (by rw [hdrainer]; rfl)
    rintro hne rfl
    obtain rfl : count = 0 := Nat.le_zero.mp hcount
    exact hne (Nat.mod_eq_of_lt h.ring.first_lt).symm
  | entered =>
    rw [hdrainer] at hagrees haccepted
    unfold log.log_core1_drain_step
    simp only [hdrainer]
    exact { h with drainer := ⟨rfl, hagrees⟩, accepted := haccepted }
  | loaded tail => exact h.log_core1_drain_loaded headFirst hdrainer
  | printed tail => exact h.log_core1_drain_printed headFirst hdrainer

theorem LogInvariant.log_core1_drain (h : LogInvariant system pending) (hidle : system.drainer = .outside) :
    LogInvariant (log_core1_drain system) pending := by
  have haccepted := h.accepted
  rw [hidle] at haccepted
  exact { h with drainer := trivial, accepted := haccepted }

theorem LogInvariant.of_idle (h : LogInvariant system pending) (hidle : system.writer = .outside)
    (current_log_level : LogLevel) (log_emitted : Bool) {dropped taken : UInt32}
    (hdropped : dropped + taken = system.state.dropped + system.taken) :
    LogInvariant
      { system with
        state := { system.state with current_log_level, log_emitted, dropped }
        taken } pending where
  ring := h.ring
  head_eq := h.head_eq
  writer := by
    rw [hidle]
    trivial
  drainer := h.drainer.of_tail rfl
  accepted := h.accepted
  calls := h.calls
  dropped := hdropped.trans h.dropped

end

theorem LogStep.preserves {system next : LogSystem} (hstep : LogStep system next) {pending : List LogLine}
    (h : LogInvariant system pending) : ∃ pending', LogInvariant next pending' := by
  cases hstep with
  | call call hidle => exact ⟨pending, h.log_write hidle call⟩
  | write => exact h.log_write_step
  | set_level level hidle => exact ⟨pending, h.of_idle hidle level system.state.log_emitted rfl⟩
  | take_dropped hidle =>
    refine ⟨pending, h.of_idle hidle system.state.current_log_level system.state.log_emitted ?_⟩
    rw [UInt32.zero_add, UInt32.add_comm]
  | take_emitted hidle => exact ⟨pending, h.of_idle hidle system.state.current_log_level false rfl⟩
  | drain hidle => exact ⟨pending, h.log_core1_drain hidle⟩
  | read headFirst => exact ⟨_, h.log_core1_drain_step headFirst⟩

theorem logInvariant_of_reachable {system : LogSystem} (hreach : Relation.ReflTransGen LogStep .start system) :
    ∃ pending, LogInvariant system pending := by
  induction hreach with
  | refl => exact ⟨[], logInvariant_start⟩
  | tail _ hstep ih =>
    obtain ⟨pending, h⟩ := ih
    exact hstep.preserves h

/-- How many steps core 1 needs at most before it gives a slot back. -/
def LogDrainer.phase : LogDrainer → Nat
  | .headRead _ => 6
  | .outside => 5
  | .checking => 4
  | .tailRead _ => 3
  | .entered => 2
  | .loaded _ => 1
  | .printed _ => 0

section

variable {system : LogSystem} {pending : List LogLine}

/-- While lines are pending, a step of core 1 gets closer to printing them. -/
theorem LogInvariant.core1_advances (h : LogInvariant system pending) (hleft : pending ≠ []) :
    ∃ pending', LogInvariant (core1_entry_step system) pending' ∧
      7 * pending'.length + (core1_entry_step system).drainer.phase < 7 * pending.length + system.drainer.phase := by
  have hagrees := h.drainer
  have hpos : 0 < pending.length := List.length_pos_iff.mpr hleft
  unfold core1_entry_step
  cases hdrainer : system.drainer with
  | outside => exact ⟨pending, h.log_core1_drain hdrainer, by simp [log.log_core1_drain, LogDrainer.phase]⟩
  | checking =>
    have hstep := h.log_core1_drain_step false
    rw [hdrainer] at hstep
    exact ⟨pending, hstep, by simp [log.log_core1_drain_step, hdrainer, LogDrainer.phase]⟩
  | tailRead tail =>
    rw [hdrainer] at hagrees
    obtain rfl : tail = system.state.tail := hagrees
    have hne : system.state.tail ≠ system.state.head := by
      rw [h.head_eq]
      exact fun heq => hleft ((ringEnd_eq_first_iff h.ring).mp heq.symm)
    have hstep := h.log_core1_drain_step false
    rw [hdrainer] at hstep
    exact ⟨pending, hstep, by simp [log.log_core1_drain_step, hdrainer, LogDrainer.phase, hne]⟩
  | headRead head =>
    have hstep := h.log_core1_drain_step false
    rw [hdrainer] at hstep
    refine ⟨pending, hstep, ?_⟩
    simp only [reduceCtorEq, if_false, log.log_core1_drain_step, hdrainer]
    split <;> simp [LogDrainer.phase]
  | entered =>
    have hstep := h.log_core1_drain_step false
    rw [hdrainer] at hstep
    exact ⟨pending, hstep, by simp [log.log_core1_drain_step, hdrainer, LogDrainer.phase]⟩
  | loaded tail =>
    have hstep := h.log_core1_drain_step false
    rw [hdrainer] at hstep
    exact ⟨pending, hstep, by simp [log.log_core1_drain_step, hdrainer, LogDrainer.phase]⟩
  | printed tail =>
    have hstep := h.log_core1_drain_step false
    rw [hdrainer] at hstep
    refine ⟨pending.tail, hstep, ?_⟩
    simp only [reduceCtorEq, if_false, log.log_core1_drain_step, hdrainer, LogDrainer.phase, List.length_tail]
    omega

theorem core1_entry_step_frame (system : LogSystem) :
    (core1_entry_step system).outcomes = system.outcomes ∧ (core1_entry_step system).writer = system.writer := by
  unfold core1_entry_step
  split
  · exact ⟨rfl, rfl⟩
  · unfold log_core1_drain_step
    simp only
    split <;> exact ⟨rfl, rfl⟩

/-- Core 1 alone prints every line that has been published. -/
theorem LogInvariant.core1_prints (h : LogInvariant system pending) (hidle : system.writer = .outside) :
    ∃ steps, (core1_entry_step^[steps] system).printed = system.accepted := by
  induction hmeasure : 7 * pending.length + system.drainer.phase using Nat.strongRecOn generalizing system pending with
  | ind measure ih =>
    by_cases hleft : pending = []
    · have haccepted := h.accepted
      simp only [hleft, hidle, List.drop_nil, LogWriter.inFlight, List.append_nil] at haccepted
      exact ⟨0, haccepted.symm⟩
    · obtain ⟨pending', hnext, hless⟩ := h.core1_advances hleft
      obtain ⟨houtcomes, hwriter⟩ := core1_entry_step_frame system
      obtain ⟨steps, hprinted⟩ := ih _ (hmeasure ▸ hless) hnext (hwriter.trans hidle) rfl
      refine ⟨steps + 1, ?_⟩
      rw [Function.iterate_succ_apply, hprinted, LogSystem.accepted, houtcomes]
      rfl

end

/-- Over all interleavings of the two cores: the printed lines are a first part
of the lines whose call has found a free slot, in call order and each once, and
core 1 prints the others. Every call has either found a slot or been counted as
dropped, at most 127 accepted lines are not printed yet, and no slot is written
that core 1 may be reading. -/
theorem log_lines_printed_once (system : LogSystem) (hreach : Relation.ReflTransGen LogStep .start system) :
    system.printed <+: system.accepted ∧
    (system.writer = .outside → ∃ steps, (core1_entry_step^[steps] system).printed = system.accepted) ∧
    system.calls = system.outcomes.map (·.1) ++ system.writer.undecided ∧
    system.state.dropped + system.taken = UInt32.ofNat system.refused ∧
    system.accepted.length ≤ system.printed.length + 127 ∧
    ∀ level line head next tail, system.writer = .free level line head next →
      system.drainer = .loaded tail ∨ system.drainer = .printed tail → tail ≠ head := by
  obtain ⟨pending, h⟩ := logInvariant_of_reachable hreach
  have hwriter := h.writer
  have hreserved := h.ring.reserved
  refine ⟨⟨_, h.accepted.symm⟩, h.core1_prints, h.calls, h.dropped, ?_, ?_⟩
  · have hroom : pending.length + system.writer.inFlight.length < LOG_QUEUE_DEPTH := by
      cases hcase : system.writer with
      | free level line head next =>
        rw [hcase] at hwriter
        exact hwriter.2.2
      | stored level line next =>
        rw [hcase] at hwriter
        exact hwriter.2.2
      | outside | formatted | loaded | published => exact hreserved
    rw [h.accepted, List.length_append, List.length_append, List.length_drop]
    rw [LOG_QUEUE_DEPTH] at hroom
    omega
  · intro level line head next tail hfree hdrainer
    rw [hfree] at hwriter
    obtain ⟨rfl, -, -⟩ := hwriter
    have hagrees : tail = system.state.tail ∧ pending ≠ [] := by
      have hdrains := h.drainer
      obtain hcase | hcase := hdrainer <;> rw [hcase] at hdrains <;> exact hdrains
    obtain ⟨rfl, hsome⟩ := hagrees
    rw [h.head_eq]
    exact fun heq => hsome ((ringEnd_eq_first_iff h.ring).mp heq.symm)

def infoCall (text : List Char) : LogCall := { level := .LOG_LEVEL_INFO, text := some text }

theorem reachable_iterate {step : LogSystem → LogSystem} (hstep : ∀ system, LogStep system (step system))
    {system : LogSystem} (hreach : Relation.ReflTransGen LogStep .start system) (steps : Nat) :
    Relation.ReflTransGen LogStep .start (step^[steps] system) := by
  induction steps with
  | zero => exact hreach
  | succ steps ih =>
    rw [Function.iterate_succ_apply']
    exact ih.tail (hstep _)

/-- A line is published, and core 1 has loaded the tail to print it. -/
def firstLoaded : LogSystem :=
  (log_core1_drain_step true)^[3] (log_core1_drain (log_write_step^[5] (log_write .start (infoCall ['u', 'p']))))

/-- A second call, in which core 1 prints the first line. -/
def secondCall : LogSystem :=
  log_write_step^[2]
    (log_core1_drain_step true (log_write_step^[3] (log_write firstLoaded (infoCall ['o', 'k']))))

theorem log_lines_printed_once_two_calls :
    secondCall.printed = [['u', 'p']] ∧ secondCall.accepted = [['u', 'p'], ['o', 'k']] ∧
      ∃ steps, (core1_entry_step^[steps] secondCall).printed = [['u', 'p'], ['o', 'k']] := by
  have haccepted : secondCall.accepted = [['u', 'p'], ['o', 'k']] := by decide +kernel
  have hcalled := Relation.ReflTransGen.refl.tail (LogStep.call .start (infoCall ['u', 'p']) rfl)
  have hpublished := reachable_iterate LogStep.write hcalled 5
  have hloaded : Relation.ReflTransGen LogStep .start firstLoaded :=
    reachable_iterate (LogStep.read · true) (hpublished.tail (.drain _ (by decide +kernel))) 3
  have hstored := reachable_iterate LogStep.write
    (hloaded.tail (.call _ (infoCall ['o', 'k']) (by decide +kernel))) 3
  have hreach : Relation.ReflTransGen LogStep .start secondCall :=
    reachable_iterate LogStep.write (hstored.tail (.read _ true)) 2
  obtain ⟨-, hprints, -⟩ := log_lines_printed_once secondCall hreach
  refine ⟨by decide +kernel, haccepted, ?_⟩
  rw [← haccepted]
  exact hprints (by decide +kernel)

end ether2ser.log
