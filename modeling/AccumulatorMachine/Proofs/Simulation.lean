import AccumulatorMachine.Proofs.Execution

/-!
# Machines that cycle alike

A relation between machines is kept by a cycle if it is kept by the few things of which a cycle
consists, and so is a property of machines. A relation checked in this way forgets the listing and
output in front. A property checked in this way gives what a cycle counts.
-/

namespace AccumulatorMachine

/-- A relation between machines that no execution can break: related machines look the same to it,
and stay related when it changes them in the same way. -/
structure ExecutionRelation (R : Machine → Machine → Prop) : Prop where
  memory : ∀ {m n}, R m n → m.memory = n.memory
  value : ∀ {m n}, R m n → ∀ d, m.value d = n.value d
  assign : ∀ {m n}, R m n → ∀ d k, R (m.assign d k) (n.assign d k)
  setMemory : ∀ {m n}, R m n → ∀ memory, R { m with memory } { n with memory }
  await : ∀ {m n}, R m n → R { m with status := .awaitingInput } { n with status := .awaitingInput }
  print : ∀ {m n}, R m n →
    R (m.print ⟨m.value .output, m.registers.output.mode⟩)
      (n.print ⟨n.value .output, n.registers.output.mode⟩)
  halt : ∀ {m n}, R m n → R m.halt n.halt

/-- A relation between machines that no action of a cycle can break, the note of a fetched line
included. -/
structure ActionRelation (R : Machine → Machine → Prop) : Prop extends ExecutionRelation R where
  noteLine : ∀ {m n}, R m n → ∀ address, R (m.noteLine address) (n.noteLine address)

/-- A relation between machines that a whole cycle cannot break. -/
structure CycleRelation (R : Machine → Machine → Prop) : Prop extends ActionRelation R where
  status : ∀ {m n}, R m n → m.status = n.status
  fault : ∀ {m n}, R m n → m.fault = n.fault
  raise : ∀ {m n}, R m n → ∀ f, R (m.raise f) (n.raise f)
  counted : ∀ {m n}, R m n → ∀ op, R (m.counted op) (n.counted op)

/-- Two results of an action that agree in what they give, and leave related machines. -/
inductive RelatedResult (R : Machine → Machine → Prop) {α : Type} :
    EStateM.Result Fault Machine α → EStateM.Result Fault Machine α → Prop
  | ok {m n : Machine} (a : α) (h : R m n) : RelatedResult R (.ok a m) (.ok a n)
  | error {m n : Machine} (f : Fault) (h : R m n) : RelatedResult R (.error f m) (.error f n)

/-- An action that gives related results on related machines. -/
def Action.Respects (R : Machine → Machine → Prop) {α : Type} (x : Action α) : Prop :=
  ∀ m n, R m n → RelatedResult R (x.run m) (x.run n)

namespace Action

/-- The rest of a fetch, once the line at an address has been noted and its word is in IR. -/
def decoded (address w : Word) : Action Opcode := do
  match w.decode with
  | .error e => throw (.ofDecodeError e address)
  | .ok op =>
    if op.needsOperand then
      assign .mar w.low12.toInt
      loadMbr
    let next := (← value .pc).toInt + 1
    if 4095 < next then throw .endOfMemory
    assign .pc next
    return op

theorem fetch_eq :
    fetch = (do
      assign .mar (← value .pc).toInt
      let address ← value .mar
      let w ← read address.toLocationUnsigned
      assign .ir w.toInt
      noteFetched address
      decoded address w) :=
  rfl

variable {R : Machine → Machine → Prop} {α β : Type}

theorem respects_pure (a : α) : Respects R (pure a : Action α) := fun _ _ h => .ok a h

theorem respects_throw (f : Fault) : Respects R (throw f : Action α) :=
  fun _ _ h => .error f h

theorem Respects.bind {x : Action α} {f : α → Action β} (hx : Respects R x)
    (hf : ∀ a, Respects R (f a)) : Respects R (x >>= f) := by
  intro m n h
  rw [EStateM.run_bind, EStateM.run_bind]
  have hrun := hx m n h
  generalize x.run m = r at hrun ⊢
  generalize x.run n = s at hrun ⊢
  cases hrun with
  | ok a h => exact hf a _ _ h
  | error e h => exact .error e h

theorem Respects.ite {x y : Action α} (c : Prop) [Decidable c] (hx : Respects R x)
    (hy : Respects R y) : Respects R (if c then x else y) := by
  split
  · exact hx
  · exact hy

section parts

variable (hR : ExecutionRelation R)
include hR

theorem respects_value (d : Designation) : Respects R (value d) := by
  intro m n h
  rw [run_value, run_value, hR.value h]
  exact .ok _ h

theorem respects_assign (d : Designation) (k : Int) : Respects R (assign d k) :=
  fun _ _ h => .ok () (hR.assign h d k)

theorem respects_read (place : Location) : Respects R (read place) := by
  intro m n h
  unfold read EStateM.run
  dsimp only
  rw [hR.memory h]
  split
  · exact .ok _ h
  · exact .error _ h

theorem respects_write (place : Location) (w : Word) : Respects R (write place w) := by
  intro m n h
  unfold write EStateM.run
  dsimp only
  rw [hR.memory h]
  split
  · exact .ok () (hR.setMemory h _)
  · exact .error _ h

theorem respects_loadMbr : Respects R loadMbr :=
  (respects_value hR .mar).bind fun mar =>
    (respects_read hR mar.toLocation).bind fun w => respects_assign hR .mbr w.toInt

theorem respects_follow : Respects R follow :=
  (respects_value hR .mbr).bind fun mbr =>
    (respects_assign hR .mar mbr.toInt).bind fun _ => respects_loadMbr hR

theorem respects_addMbr : Respects R addMbr :=
  (respects_value hR .ac).bind fun ac =>
    (respects_value hR .mbr).bind fun mbr => respects_assign hR .ac (ac.toInt + mbr.toInt)

theorem respects_decoded (address w : Word) : Respects R (decoded address w) := by
  have hadvance : ∀ op : Opcode, Respects R (do
      let next := (← value .pc).toInt + 1
      if 4095 < next then throw .endOfMemory
      assign .pc next
      return op) := by
    intro op
    apply (respects_value hR .pc).bind
    intro pc
    refine Respects.ite _ ?_ ?_
    · exact (respects_throw _).bind fun _ => (respects_assign hR _ _).bind fun _ => respects_pure _
    · exact (respects_assign hR _ _).bind fun _ => respects_pure _
  unfold decoded
  cases w.decode with
  | error e => exact respects_throw _
  | ok op =>
    refine Respects.ite _ ?_ (hadvance op)
    apply (respects_assign hR .mar _).bind
    intro _
    exact (respects_loadMbr hR).bind fun _ => hadvance op

theorem respects_execute (op : Opcode) : Respects R (execute op) := by
  apply (respects_value hR .ir).bind
  intro ir
  cases op with
  | jns =>
    apply (respects_value hR .pc).bind
    intro pc
    apply (respects_assign hR .mbr _).bind
    intro _
    apply (respects_assign hR .mar _).bind
    intro _
    apply (respects_value hR .mar).bind
    intro mar
    apply (respects_value hR .mbr).bind
    intro mbr
    apply (respects_write hR _ _).bind
    intro _
    apply (respects_value hR .mar).bind
    intro mar
    apply (respects_assign hR .mbr _).bind
    intro _
    apply (respects_value hR .mbr).bind
    intro mbr
    apply (respects_assign hR .ac _).bind
    intro _
    exact (respects_value hR .ac).bind fun ac => respects_assign hR .pc _
  | load => exact (respects_value hR .mbr).bind fun mbr => respects_assign hR .ac _
  | store =>
    apply (respects_value hR .ac).bind
    intro ac
    apply (respects_assign hR .mbr _).bind
    intro _
    apply (respects_value hR .mar).bind
    intro mar
    exact (respects_value hR .mbr).bind fun mbr => respects_write hR _ _
  | add => exact respects_addMbr hR
  | subt =>
    apply (respects_value hR .ac).bind
    intro ac
    exact (respects_value hR .mbr).bind fun mbr => respects_assign hR .ac _
  | input => exact fun _ _ h => .ok () (hR.await h)
  | output =>
    apply (respects_value hR .ac).bind
    intro ac
    exact (respects_assign hR .output _).bind fun _ => fun _ _ h => .ok () (hR.print h)
  | halt => exact fun _ _ h => .ok () (hR.halt h)
  | skipCond =>
    dsimp only
    cases Condition.ofWord ir with
    | error e => exact (respects_value hR .mar).bind fun mar => respects_throw _
    | ok c =>
      refine (respects_value hR .ac).bind fun ac => Respects.ite _ ?_ (respects_pure ())
      exact (respects_value hR .pc).bind fun pc => respects_assign hR .pc _
  | jump => exact respects_assign hR .pc _
  | clear => exact respects_assign hR .ac 0
  | addI => exact (respects_follow hR).bind fun _ => respects_addMbr hR
  | jumpI => exact (respects_value hR .mbr).bind fun mbr => respects_assign hR .pc _
  | loadI =>
    apply (respects_follow hR).bind
    intro _
    exact (respects_value hR .mbr).bind fun mbr => respects_assign hR .ac _
  | storeI =>
    apply (respects_follow hR).bind
    intro _
    apply (respects_value hR .mbr).bind
    intro mbr
    exact (respects_value hR .ac).bind fun ac => respects_write hR _ _

end parts

theorem respects_fetch (hR : ActionRelation R) : Respects R fetch := by
  have hparts := hR.toExecutionRelation
  apply (respects_value hparts .pc).bind
  intro pc
  apply (respects_assign hparts .mar pc.toInt).bind
  intro _
  apply (respects_value hparts .mar).bind
  intro address
  apply (respects_read hparts _).bind
  intro w
  apply (respects_assign hparts .ir w.toInt).bind
  intro _
  exact Respects.bind (fun _ _ h => .ok () (hR.noteLine h address)) fun _ =>
    respects_decoded hparts address w

end Action

theorem RelatedResult.settle {R : Machine → Machine → Prop} (hR : CycleRelation R) {α : Type}
    {r s : EStateM.Result Fault Machine α} (h : RelatedResult R r s) :
    R (Machine.settle r) (Machine.settle s) := by
  cases h with
  | ok a h => exact h
  | error f h => exact hR.raise h f

/-- Related machines execute the same instruction, and stay related. -/
theorem CycleRelation.cycle {R : Machine → Machine → Prop} (hR : CycleRelation R) {m n : Machine}
    (h : R m n) : m.cycle.1 = n.cycle.1 ∧ R m.cycle.2 n.cycle.2 := by
  unfold Machine.cycle
  rw [hR.status h, hR.fault h]
  split
  · exact ⟨rfl, h⟩
  split
  · exact ⟨rfl, hR.halt h⟩
  have hfetch := Action.respects_fetch hR.toActionRelation m n h
  generalize Action.fetch.run m = r at hfetch ⊢
  generalize Action.fetch.run n = s at hfetch ⊢
  cases hfetch with
  | error f h => exact ⟨rfl, hR.raise h f⟩
  | ok op h =>
    have hexecute := Action.respects_execute hR.toExecutionRelation op _ _ h
    exact ⟨rfl, hR.counted (hexecute.settle hR) op⟩

/-- A property of machines that no execution can break. -/
structure ExecutionInvariant (P : Machine → Prop) : Prop where
  assign : ∀ {m}, P m → ∀ d k, P (m.assign d k)
  setMemory : ∀ {m}, P m → ∀ memory, P { m with memory }
  await : ∀ {m}, P m → P { m with status := .awaitingInput }
  print : ∀ {m}, P m → ∀ r, P (m.print r)
  halt : ∀ {m}, P m → P m.halt

/-- A property of machines that no action of a cycle can break. -/
structure ActionInvariant (P : Machine → Prop) : Prop extends ExecutionInvariant P where
  noteLine : ∀ {m}, P m → ∀ address, P (m.noteLine address)

/-- A property of machines that a whole cycle cannot break. -/
structure CycleInvariant (P : Machine → Prop) : Prop extends ActionInvariant P where
  raise : ∀ {m}, P m → ∀ f, P (m.raise f)
  counted : ∀ {m}, P m → ∀ op, P (m.counted op)

theorem ExecutionInvariant.relation {P : Machine → Prop} (hP : ExecutionInvariant P) :
    ExecutionRelation fun m n => n = m ∧ P m where
  memory := by
    rintro m n ⟨rfl, -⟩
    rfl
  value := by
    rintro m n ⟨rfl, -⟩ d
    rfl
  assign := by
    rintro m n ⟨rfl, h⟩ d k
    exact ⟨rfl, hP.assign h d k⟩
  setMemory := by
    rintro m n ⟨rfl, h⟩ memory
    exact ⟨rfl, hP.setMemory h memory⟩
  await := by
    rintro m n ⟨rfl, h⟩
    exact ⟨rfl, hP.await h⟩
  print := by
    rintro m n ⟨rfl, h⟩
    exact ⟨rfl, hP.print h _⟩
  halt := by
    rintro m n ⟨rfl, h⟩
    exact ⟨rfl, hP.halt h⟩

theorem ActionInvariant.relation {P : Machine → Prop} (hP : ActionInvariant P) :
    ActionRelation fun m n => n = m ∧ P m where
  toExecutionRelation := hP.toExecutionInvariant.relation
  noteLine := by
    rintro m n ⟨rfl, h⟩ address
    exact ⟨rfl, hP.noteLine h address⟩

namespace Machine

/-- The machine that an action leaves, whether or not it faults. -/
def left {α : Type} : EStateM.Result Fault Machine α → Machine
  | .ok _ m => m
  | .error _ m => m

theorem settle_of_left {P : Machine → Prop} (hraise : ∀ {m : Machine}, P m → ∀ f, P (m.raise f))
    {α : Type} {r : EStateM.Result Fault Machine α} (h : P (left r)) : P (settle r) := by
  cases r with
  | ok a m => exact h
  | error f m => exact hraise h f

end Machine

theorem RelatedResult.left {P : Machine → Prop} {α : Type} {r : EStateM.Result Fault Machine α}
    (h : RelatedResult (fun m n => n = m ∧ P m) r r) : P (Machine.left r) := by
  cases h with
  | ok a h => exact h.2
  | error f h => exact h.2

/-- What no execution and no fault breaks is kept, once a fetch has left it, until the cycle counts
its instruction. -/
theorem ExecutionInvariant.cycle {P : Machine → Prop} (hP : ExecutionInvariant P)
    (hraise : ∀ {m : Machine}, P m → ∀ f, P (m.raise f)) {m : Machine} (hrun : m.status = .running)
    (hfault : m.fault = none) (hfetch : P (Machine.left (Action.fetch.run m))) :
    ∃ n, P n ∧ m.cycle.2 = m.cycle.1.elim n n.counted := by
  cases hr : Action.fetch.run m with
  | error f m' =>
    rw [hr] at hfetch
    rw [Machine.cycle_of_fetch_error hrun hfault hr]
    exact ⟨m'.raise f, hraise hfetch f, rfl⟩
  | ok op m' =>
    rw [hr] at hfetch
    rw [Machine.cycle_of_fetch_ok hrun hfault hr]
    have hexecute := Action.respects_execute hP.relation op m' m' ⟨rfl, hfetch⟩
    exact ⟨_, Machine.settle_of_left hraise hexecute.left, rfl⟩

theorem ActionInvariant.cycle {P : Machine → Prop} (hP : ActionInvariant P)
    (hraise : ∀ {m : Machine}, P m → ∀ f, P (m.raise f)) {m : Machine} (h : P m) :
    ∃ n, P n ∧ m.cycle.2 = m.cycle.1.elim n n.counted := by
  by_cases hrun : m.status = .running
  · by_cases hfault : m.fault = none
    · have hfetch := Action.respects_fetch hP.relation m m ⟨rfl, h⟩
      exact hP.toExecutionInvariant.cycle hraise hrun hfault hfetch.left
    · rw [Machine.cycle_of_fault hrun hfault]
      exact ⟨m.halt, hP.halt h, rfl⟩
  · rw [Machine.cycle_of_ne hrun]
    exact ⟨m, h, rfl⟩

theorem CycleInvariant.relation {P : Machine → Prop} (hP : CycleInvariant P) :
    CycleRelation fun m n => n = m ∧ P m where
  toActionRelation := hP.toActionInvariant.relation
  status := by
    rintro m n ⟨rfl, -⟩
    rfl
  fault := by
    rintro m n ⟨rfl, -⟩
    rfl
  raise := by
    rintro m n ⟨rfl, h⟩ f
    exact ⟨rfl, hP.raise h f⟩
  counted := by
    rintro m n ⟨rfl, h⟩ op
    exact ⟨rfl, hP.counted h op⟩

theorem CycleInvariant.cycle {P : Machine → Prop} (hP : CycleInvariant P) {m : Machine}
    (h : P m) : P m.cycle.2 :=
  (hP.relation.cycle ⟨rfl, h⟩).2.2

namespace Machine

theorem cycleInvariant_wellFormed : CycleInvariant WellFormed where
  assign h d k := (wellFormed_assign _ d k).2 h
  setMemory h _ := h
  noteLine h _ := h
  await h := h
  print h _ := h
  halt h := h
  raise h _ := h
  counted h _ := h

theorem cycleInvariant_status {S : Status → Prop} (hwait : S .awaitingInput)
    (hnormal : S .haltedNormal) (habnormal : S .haltedAbnormal) :
    CycleInvariant fun m => S m.status where
  assign h _ _ := h
  setMemory h _ := h
  noteLine h _ := h
  await _ := hwait
  print h _ := h
  halt := by
    intro m _
    unfold Machine.halt
    dsimp only
    split
    · exact habnormal
    · exact hnormal
  raise := by
    intro m _ f
    rwa [status_raise]
  counted h _ := h

/-- The machine with another listing, and with output in front of its own. -/
def altered (m : Machine) (view : Listing → Listing) (before : Array OutputRecord) : Machine :=
  { m with listing := view m.listing, output := before ++ m.output }

/-- A machine that neither a pause nor a user has stopped, and its alteration. -/
def Alters (view : Listing → Listing) (before : Array OutputRecord) (m n : Machine) : Prop :=
  n = m.altered view before ∧ m.status ≠ .paused ∧ m.status ≠ .haltedByUser

theorem altered_raise (m : Machine) (view : Listing → Listing) (before : Array OutputRecord)
    (f : Fault) : (m.altered view before).raise f = (m.raise f).altered view before := rfl

theorem altered_completeInput (m : Machine) (view : Listing → Listing)
    (before : Array OutputRecord) (n : Int) :
    (m.altered view before).completeInput n = (m.completeInput n).altered view before := rfl

variable (view : Listing → Listing)
  (hview : ∀ l address, (view l).rowOf? address = l.rowOf? address)
include hview

theorem cycleRelation_alters (before : Array OutputRecord) :
    CycleRelation (Alters view before) where
  status := by
    rintro m n ⟨rfl, -⟩
    rfl
  fault := by
    rintro m n ⟨rfl, -⟩
    rfl
  memory := by
    rintro m n ⟨rfl, -⟩
    rfl
  value := by
    rintro m n ⟨rfl, -⟩ d
    rfl
  assign := by
    rintro m n ⟨rfl, h⟩ d k
    exact ⟨rfl, h⟩
  setMemory := by
    rintro m n ⟨rfl, h⟩ memory
    exact ⟨rfl, h⟩
  noteLine := by
    rintro m n ⟨rfl, h⟩ address
    refine ⟨?_, h⟩
    unfold noteLine altered
    dsimp only
    rw [hview]
  await := by
    rintro m n ⟨rfl, -⟩
    exact ⟨rfl, nofun, nofun⟩
  print := by
    rintro m n ⟨rfl, h⟩
    refine ⟨?_, h⟩
    unfold print altered
    rw [Array.append_push]
    rfl
  raise := by
    rintro m n ⟨rfl, -⟩ f
    cases hf : m.fault <;> simp [Alters, altered, raise, halt, hf]
  halt := by
    rintro m n ⟨rfl, -⟩
    cases hf : m.fault <;> simp [Alters, altered, halt, hf]
  counted := by
    rintro m n ⟨rfl, h⟩ op
    exact ⟨rfl, h⟩

theorem altered_cycle {m : Machine} (h : m.status = .running) (before : Array OutputRecord) :
    (m.altered view before).cycle.2 = m.cycle.2.altered view before := by
  have halters : Alters view before m (m.altered view before) := by simp [Alters, h]
  exact ((cycleRelation_alters view hview before).cycle halters).2.1

omit hview

/-- No instruction pauses a machine or stops it as a user does. -/
theorem status_cycle {m : Machine} (h : m.status = .running) :
    m.cycle.2.status ≠ .paused ∧ m.cycle.2.status ≠ .haltedByUser := by
  have halters : Alters id #[] m (m.altered id #[]) := by simp [Alters, h]
  exact ((cycleRelation_alters id (fun _ _ => rfl) #[]).cycle halters).2.2

theorem actionInvariant_counts (count : UInt64) (last : Option Opcode) :
    ActionInvariant fun m => m.cycles = count ∧ m.lastOpcode = last where
  assign h _ _ := h
  setMemory h _ := h
  noteLine h _ := h
  await h := h
  print h _ := h
  halt h := h

theorem counts_cycle (m : Machine) :
    m.cycle.2.cycles = m.cycles + (if m.cycle.1.isSome then 1 else 0) ∧
      m.cycle.2.lastOpcode = m.cycle.1.or m.lastOpcode := by
  obtain ⟨n, ⟨hcycles, hlast⟩, hcycle⟩ :=
    (actionInvariant_counts m.cycles m.lastOpcode).cycle (fun h _ => h) ⟨rfl, rfl⟩
  rw [hcycle, ← hcycles, ← hlast]
  cases m.cycle.1 with
  | none => exact ⟨(UInt64.add_zero _).symm, rfl⟩
  | some op => exact ⟨rfl, rfl⟩

theorem status_cycle_of_fst_eq_none {m : Machine} (h : m.cycle.1 = none) :
    m.cycle.2.status ≠ .running := by
  by_cases hrun : m.status = .running
  · by_cases hfault : m.fault = none
    · cases hr : Action.fetch.run m with
      | error f m' =>
        rw [cycle_of_fetch_error hrun hfault hr, status_raise]
        decide
      | ok op m' =>
        rw [cycle_of_fetch_ok hrun hfault hr] at h
        cases h
    · rw [cycle_of_fault hrun hfault]
      simp [halt, Option.isSome_iff_ne_none.2 hfault]
  · rwa [cycle_of_ne hrun]

/-- A cycle completes one instruction, or none; then it has stopped the machine. -/
theorem cycles_cycle_cases (m : Machine) :
    m.cycle.2.cycles = m.cycles + 1 ∨
      m.cycle.2.cycles = m.cycles ∧ m.cycle.2.status ≠ .running := by
  rw [(counts_cycle m).1]
  cases hop : m.cycle.1 with
  | none => exact .inr ⟨UInt64.add_zero _, status_cycle_of_fst_eq_none hop⟩
  | some op => exact .inl rfl

end Machine

end AccumulatorMachine
