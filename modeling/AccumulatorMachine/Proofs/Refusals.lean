import AccumulatorMachine.Proofs.BreakpointEdits

/-!
# Refused operations

An operation of a controller looks at its guards, in their order, before it changes anything. One
that is refused leaves the controller as it is, so that a history goes on as if it had never been
tried. Only a load that is refused for its image is different: it has reset the machine.
-/

namespace AccumulatorMachine

/-- Whether a reply is a refusal for a reason other than the image of a load. -/
def Reply.isRefusal : Reply → Bool
  | .refused (.load _) => false
  | .refused _ => true
  | _ => false

theorem Reply.isRefusal_refused {e : Refusal} (h : ∀ cause, e ≠ .load cause) :
    (Reply.refused e).isRefusal = true := by
  cases e with
  | load cause => exact (h cause rfl).elim
  | _ => rfl

namespace Controller

/-- Why a value or the end of an INPUT is refused, if it is: nothing waits for it. -/
def inputRefusal? (c : Controller) : Option Refusal :=
  if c.machine.status ≠ .awaitingInput then some (.notAwaitingInput c.machine.status) else none

/-- Why the change of a breakpoint is refused, if it is: no line owns the address. -/
def editRefusal? (c : Controller) (address : Word) : Option Refusal :=
  if (c.machine.listing.rowOf? address).isNone then some (.notAProgramLine address) else none

/-- Why an operation is refused, if it is, whatever the image of a load. A literal is read before
the state is looked at, and a paused machine can still have a worker that has not ended. -/
def guard? (c : Controller) : Operation → Option Refusal
  | .load _ => if c.working then some .busy else none
  | .step | .run | .runToBreakpoint => c.refusal?
  | .resume => if c.machine.status ≠ .paused then some (.notPaused c.machine.status) else c.refusal?
  | .supply _ | .abort _ => c.inputRefusal?
  | .supplyLiteral text =>
    match c.machine.registers.input.mode.literal text with
    | .error e => some (.literal e)
    | .ok _ => c.inputRefusal?
  | .setBreakpoint address _ | .toggleBreakpoint address => c.editRefusal? address
  | _ => none

section guards

variable {c : Controller} (fuel : Nat)

theorem answer_of_run_error {α : Type} {action : Control α} (reply : α → Reply) {e : Refusal}
    (h : action.run c = .error e c) : c.answer action reply = (.refused e, c) := by
  rw [answer, h]

theorem run_supply_of_inputRefusal? {e : Refusal} (h : c.inputRefusal? = some e) (n : Int) :
    (Control.supply fuel n).run c = .error e c := by
  unfold inputRefusal? at h
  rw [Control.run_supply]
  split at h
  next hwait =>
    cases h
    rw [if_pos hwait]
  next => cases h

theorem modifyBreakpoint?_of_editRefusal? {e : Refusal} {address : Word}
    (h : c.editRefusal? address = some e) (f : Bool → Bool) :
    c.machine.listing.modifyBreakpoint? address f = none ∧ e = .notAProgramLine address := by
  unfold editRefusal? at h
  split at h
  next hnone =>
    cases h
    exact ⟨Option.map_eq_none_iff.2 (Option.isNone_iff_eq_none.1 hnone), rfl⟩
  next => cases h

theorem exists_modifyBreakpoint? {address : Word} (h : c.editRefusal? address = none)
    (f : Bool → Bool) :
    ∃ listing, c.machine.listing.modifyBreakpoint? address f = some listing := by
  unfold editRefusal? at h
  split at h
  next => cases h
  next howned =>
    obtain ⟨row, hrow⟩ := Option.ne_none_iff_exists'.1 fun hnone =>
      howned (Option.isNone_iff_eq_none.2 hnone)
    exact ⟨_, Option.map_eq_some_iff.2 ⟨row, hrow, rfl⟩⟩

theorem run_resume_of_refusal? {e : Refusal} (hpaused : c.machine.status = .paused)
    (h : c.refusal? = some e) : (Control.resume fuel).run c = .error e c := by
  rw [Control.run_resume, if_neg (not_not_intro hpaused)]
  cases c.mode with
  | singleStep =>
    dsimp only
    rw [Control.run_step, h]
  | toCompletion =>
    dsimp only
    rw [Control.run_runToCompletion, h]
  | toBreakpoint =>
    dsimp only
    rw [EStateM.run_bind, Control.run_runToBreakpoint, h]

theorem perform_of_guard? {op : Operation} {e : Refusal} (h : c.guard? op = some e) :
    c.perform fuel op = (.refused e, c) := by
  cases op with
  | load source =>
    rw [guard?] at h
    split at h
    next hwork =>
      cases h
      exact answer_of_run_error _ (by rw [Control.loadRead, Control.run_loading, if_pos hwork])
    next => cases h
  | step =>
    rw [guard?] at h
    exact answer_of_run_error _ (by rw [Control.run_step, h])
  | run =>
    rw [guard?] at h
    exact answer_of_run_error _ (by rw [Control.run_runToCompletion, h])
  | runToBreakpoint =>
    rw [guard?] at h
    exact answer_of_run_error _ (by rw [Control.run_runToBreakpoint, h])
  | resume =>
    rw [guard?] at h
    split at h
    next hpaused =>
      cases h
      exact answer_of_run_error _ (by rw [Control.run_resume, if_pos hpaused])
    next hpaused =>
      exact answer_of_run_error _ (run_resume_of_refusal? fuel (Decidable.not_not.1 hpaused) h)
  | supply n =>
    rw [guard?] at h
    exact answer_of_run_error _ (run_supply_of_inputRefusal? fuel h n)
  | supplyLiteral text =>
    rw [guard?] at h
    refine answer_of_run_error _ ?_
    rw [Control.run_supplyLiteral]
    cases hliteral : c.machine.registers.input.mode.literal text with
    | error e' =>
      rw [hliteral] at h
      cases h
      rfl
    | ok w =>
      rw [hliteral] at h
      exact run_supply_of_inputRefusal? fuel h w.toInt
  | abort f =>
    rw [guard?, inputRefusal?] at h
    split at h
    next hwait =>
      cases h
      exact answer_of_run_error _ (by rw [Control.run_abort, if_pos hwait])
    next => cases h
  | setBreakpoint address on =>
    rw [guard?] at h
    obtain ⟨hnone, rfl⟩ := modifyBreakpoint?_of_editRefusal? h fun _ => on
    rw [perform_setBreakpoint, hnone]
  | toggleBreakpoint address =>
    rw [guard?] at h
    obtain ⟨hnone, rfl⟩ := modifyBreakpoint?_of_editRefusal? h not
    rw [perform_toggleBreakpoint, hnone]
  | _ => cases h

theorem isRefusal_answer {α : Type} {action : Control α} {reply : α → Reply} {a : α}
    {d : Controller} (h : action.run c = .ok a d) (hreply : (reply a).isRefusal = false) :
    (c.answer action reply).1.isRefusal = false := by
  rw [answer, h]
  exact hreply

theorem isRefusal_supply (h : c.inputRefusal? = none) (n : Int) :
    (c.answer (Control.supply fuel n) .status).1.isRefusal = false := by
  unfold inputRefusal? at h
  split at h
  next => cases h
  next hwait =>
    have hrun := Control.run_supply c fuel n
    rw [if_neg hwait] at hrun
    dsimp only at hrun
    split at hrun
    · exact isRefusal_answer hrun rfl
    · exact isRefusal_answer hrun rfl

theorem isRefusal_resume (hpaused : c.machine.status = .paused) (h : c.refusal? = none) :
    (c.answer (Control.resume fuel) .status).1.isRefusal = false := by
  have hrun := Control.run_resume c fuel
  rw [if_neg (not_not_intro hpaused)] at hrun
  cases hmode : c.mode with
  | singleStep =>
    rw [hmode] at hrun
    dsimp only at hrun
    rw [Control.run_step, h] at hrun
    exact isRefusal_answer hrun rfl
  | toCompletion =>
    rw [hmode] at hrun
    dsimp only at hrun
    rw [Control.run_runToCompletion, h] at hrun
    exact isRefusal_answer hrun rfl
  | toBreakpoint =>
    rw [hmode] at hrun
    dsimp only at hrun
    rw [EStateM.run_bind, Control.run_runToBreakpoint, h] at hrun
    exact isRefusal_answer hrun rfl

/-- An operation that its guards let pass is carried out, unless it is a load whose image is
refused. -/
theorem isRefusal_perform {op : Operation} (h : c.guard? op = none) :
    (c.perform fuel op).1.isRefusal = false := by
  cases op with
  | load source =>
    rw [guard?] at h
    have hidle : c.working ≠ true := by
      intro hwork
      rw [if_pos hwork] at h
      cases h
    rw [perform, answer, Control.loadRead, Control.run_loading, if_neg hidle]
    cases (Machine.loadRead source).run c.machine <;> rfl
  | step =>
    rw [guard?] at h
    have hrun := Control.run_step c
    rw [h] at hrun
    exact isRefusal_answer hrun rfl
  | run =>
    rw [guard?] at h
    have hrun := Control.run_runToCompletion c fuel
    rw [h] at hrun
    exact isRefusal_answer hrun rfl
  | runToBreakpoint =>
    rw [guard?] at h
    have hrun := Control.run_runToBreakpoint c
    rw [h] at hrun
    exact isRefusal_answer hrun rfl
  | resume =>
    rw [guard?] at h
    split at h
    next => cases h
    next hpaused => exact isRefusal_resume fuel (Decidable.not_not.1 hpaused) h
  | supply n =>
    rw [guard?] at h
    exact isRefusal_supply fuel h n
  | supplyLiteral text =>
    rw [guard?] at h
    rw [perform, answer, Control.run_supplyLiteral]
    cases hliteral : c.machine.registers.input.mode.literal text with
    | error e' =>
      rw [hliteral] at h
      cases h
    | ok w =>
      rw [hliteral] at h
      exact isRefusal_supply fuel h w.toInt
  | abort f =>
    rw [guard?, inputRefusal?] at h
    split at h
    next => cases h
    next hwait =>
      have hrun := Control.run_abort c f
      rw [if_neg hwait] at hrun
      exact isRefusal_answer hrun rfl
  | setBreakpoint address on =>
    rw [guard?] at h
    obtain ⟨listing, hlisting⟩ := exists_modifyBreakpoint? h fun _ => on
    rw [perform_setBreakpoint, hlisting]
    rfl
  | toggleBreakpoint address =>
    rw [guard?] at h
    obtain ⟨listing, hlisting⟩ := exists_modifyBreakpoint? h not
    rw [perform_toggleBreakpoint, hlisting]
    rfl
  | write place w =>
    rw [perform]
    cases c.machine.memory.write place w <;> rfl
  | _ => rfl

/-- An operation is refused exactly for the reason that its guards give. -/
theorem perform_eq_refused_iff {op : Operation} {e : Refusal} (he : ∀ cause, e ≠ .load cause) :
    (c.perform fuel op).1 = .refused e ↔ c.guard? op = some e := by
  constructor
  · intro hreply
    cases hguard : c.guard? op with
    | none =>
      have hpassed := isRefusal_perform fuel hguard
      rw [hreply, Reply.isRefusal_refused he] at hpassed
      cases hpassed
    | some e' =>
      rw [perform_of_guard? fuel hguard] at hreply
      cases hreply
      rfl
  · intro hguard
    rw [perform_of_guard? fuel hguard]

theorem perform_of_isRefusal {op : Operation} (h : (c.perform fuel op).1.isRefusal = true) :
    (c.perform fuel op).2 = c := by
  cases hguard : c.guard? op with
  | none =>
    rw [isRefusal_perform fuel hguard] at h
    cases h
  | some e => rw [perform_of_guard? fuel hguard]

end guards

/-- What an event answers. Nobody has asked for the tick of a worker. -/
def reply? (fuel : Nat) (c : Controller) : Event → Option Reply
  | .call op => some (c.perform fuel op).1
  | .tick => none

def refuses (fuel : Nat) (c : Controller) (e : Event) : Bool :=
  (c.reply? fuel e).any Reply.isRefusal

/-- The controller after some events, each with a bound on the ticks of a run. -/
def afterAll : Controller → List (Nat × Event) → Controller
  | c, [] => c
  | c, (fuel, e) :: events => (c.after fuel e).afterAll events

def replies : Controller → List (Nat × Event) → List Reply
  | _, [] => []
  | c, (fuel, e) :: events => (c.reply? fuel e).toList ++ (c.after fuel e).replies events

def heeded : Controller → List (Nat × Event) → List (Nat × Event)
  | _, [] => []
  | c, (fuel, e) :: events =>
    let rest := (c.after fuel e).heeded events
    if c.refuses fuel e then rest else (fuel, e) :: rest

theorem after_of_refuses {c : Controller} {fuel : Nat} {e : Event} (h : c.refuses fuel e = true) :
    c.after fuel e = c := by
  cases e with
  | call op => exact perform_of_isRefusal fuel h
  | tick => cases h

theorem filter_reply?_of_refuses {c : Controller} {fuel : Nat} {e : Event}
    (h : c.refuses fuel e = true) : (c.reply? fuel e).toList.filter (!·.isRefusal) = [] := by
  cases e with
  | call op =>
    have hrefusal : (c.perform fuel op).1.isRefusal = true := h
    simp [reply?, hrefusal]
  | tick => cases h

theorem filter_reply?_of_not_refuses {c : Controller} {fuel : Nat} {e : Event}
    (h : c.refuses fuel e = false) :
    (c.reply? fuel e).toList.filter (!·.isRefusal) = (c.reply? fuel e).toList := by
  cases e with
  | call op =>
    have hrefusal : (c.perform fuel op).1.isRefusal = false := h
    simp [reply?, hrefusal]
  | tick => rfl

/-- Events that are refused can be left out. -/
theorem afterAll_heeded (c : Controller) (events : List (Nat × Event)) :
    c.afterAll (c.heeded events) = c.afterAll events ∧
      c.replies (c.heeded events) = (c.replies events).filter (!·.isRefusal) := by
  induction events generalizing c with
  | nil => exact ⟨rfl, rfl⟩
  | cons entry events ih =>
    obtain ⟨fuel, e⟩ := entry
    obtain ⟨hafter, hreplies⟩ := ih (c.after fuel e)
    rw [heeded, afterAll, replies, List.filter_append]
    cases hrefuses : c.refuses fuel e with
    | true =>
      rw [after_of_refuses hrefuses] at hafter hreplies ⊢
      rw [filter_reply?_of_refuses hrefuses]
      exact ⟨hafter, hreplies⟩
    | false =>
      rw [filter_reply?_of_not_refuses hrefuses, ← hreplies]
      exact ⟨hafter, rfl⟩

/-- Refused operations change nothing, neither the machine nor how it is driven nor the requests
that are left. Each is refused exactly for the reason that its guards give, whether or not a worker
drives the machine. Whatever is done later, and whatever the worker does, goes on as if they had not
been tried. -/
theorem refused_operations_change_nothing (c : Controller) :
    (∀ fuel op e, (∀ cause, e ≠ .load cause) →
      ((c.perform fuel op).1 = .refused e ↔ c.guard? op = some e) ∧
      ((c.perform fuel op).1 = .refused e → (c.perform fuel op).2 = c)) ∧
    ∀ events, c.afterAll (c.heeded events) = c.afterAll events ∧
      c.replies (c.heeded events) = (c.replies events).filter (!·.isRefusal) := by
  refine ⟨fun fuel op e he => ⟨perform_eq_refused_iff fuel he, fun hreply => ?_⟩, c.afterAll_heeded⟩
  have hrefusal := Reply.isRefusal_refused he
  rw [← hreply] at hrefusal
  exact perform_of_isRefusal fuel hrefusal

def circling : Controller :=
  ((new .default).after 0 (.call (.load (.ok (.ofWords 0 [0x9000]))))).after 0
    (.call .runToBreakpoint)

/-- A stop for the worker, among operations that are refused before and after it. -/
def attempts : List (Nat × Event) :=
  [(0, .call .step), (0, .call .resume), (0, .tick), (0, .call (.supplyLiteral "seven")),
    (0, .call .leaveStop), (0, .call (.toggleBreakpoint 9)), (0, .tick), (0, .call (.supply 7))]

/-- Of the attempts two ticks and the stop are heeded, which halts the machine. -/
theorem refused_operations_change_nothing_circling :
    (circling.perform 0 .step).1 = .refused .busy ∧ (circling.perform 0 .step).2 = circling ∧
    (circling.heeded attempts).length = 3 ∧
    circling.afterAll (circling.heeded attempts) = circling.afterAll attempts ∧
    (circling.afterAll attempts).machine.status = .haltedByUser ∧
    (circling.afterAll attempts).machine.cycles = 1 := by
  obtain ⟨hperform, hevents⟩ := refused_operations_change_nothing circling
  obtain ⟨hiff, hsame⟩ := hperform 0 .step .busy (by nofun)
  have hbusy := hiff.2 (by decide +kernel)
  exact ⟨hbusy, hsame hbusy, by decide +kernel, (hevents attempts).1, by decide +kernel,
    by decide +kernel⟩

end Controller

end AccumulatorMachine
