import AccumulatorMachine.Proofs.Passages

/-!
# Which breakpoints are set

The breakpoints of a loaded program are those whose last accepted change turned them on, whatever
else was done with the controller in between. A change is refused exactly where the program has no
line.
-/

namespace AccumulatorMachine

/-- The operations that put another listing in place of the program's. -/
def Operation.reloads : Operation → Bool
  | .load _ | .reset => true
  | _ => false

/-- An accepted change of the breakpoint at an address, and what it turned it to. -/
inductive Turns (address : Word) : Operation × Reply → Bool → Prop
  | set (on : Bool) : Turns address (.setBreakpoint address on, .done) on
  | toggle (on : Bool) : Turns address (.toggleBreakpoint address, .breakpoint on) on

/-- An operation that, by its reply, has left the breakpoint at an address as it was. -/
def Leaves (address : Word) (entry : Operation × Reply) : Prop :=
  entry.1 ≠ .clearBreakpoints ∧ ∀ on, ¬Turns address entry on

section turns

variable {address : Word} {reply : Reply} {on : Bool}

theorem turns_set_iff {a : Word} {on' : Bool} :
    Turns address (.setBreakpoint a on, .done) on' ↔ address = a ∧ on = on' := by
  constructor
  · rintro ⟨⟩
    exact ⟨rfl, rfl⟩
  · rintro ⟨rfl, rfl⟩
    exact .set on

theorem turns_toggle_iff {a : Word} {on' : Bool} :
    Turns address (.toggleBreakpoint a, .breakpoint on) on' ↔ address = a ∧ on = on' := by
  constructor
  · rintro ⟨⟩
    exact ⟨rfl, rfl⟩
  · rintro ⟨rfl, rfl⟩
    exact .toggle on

theorem turns_or_leaves_iff {entry : Operation × Reply} {a : Word} {old : Prop}
    (hclear : entry.1 ≠ .clearBreakpoints)
    (hturns : ∀ on', Turns address entry on' ↔ address = a ∧ on = on') :
    Turns address entry true ∨ (Leaves address entry ∧ old) ↔
      if address = a then on = true else old := by
  simp only [Leaves, hturns]
  by_cases ha : address = a <;> simp [ha, hclear]

end turns

/-- The last accepted change at an address, since the breakpoints were last cleared, turned its
breakpoint on. -/
def TurnedOn (address : Word) (log : List (Operation × Reply)) : Prop :=
  ∃ before change later, log = before ++ change :: later ∧ Turns address change true ∧
    ∀ entry ∈ later, Leaves address entry

theorem not_turnedOn_nil (address : Word) : ¬TurnedOn address [] := by
  rintro ⟨before, change, later, heq, -⟩
  cases before <;> cases heq

theorem turnedOn_concat_iff {address : Word} {log : List (Operation × Reply)}
    {entry : Operation × Reply} :
    TurnedOn address (log ++ [entry]) ↔
      Turns address entry true ∨ (Leaves address entry ∧ TurnedOn address log) := by
  constructor
  · rintro ⟨before, change, later, heq, hturns, hlater⟩
    rcases List.eq_nil_or_concat' later with rfl | ⟨later, last, rfl⟩
    · obtain ⟨-, hentry⟩ := List.append_inj' heq rfl
      cases hentry
      exact .inl hturns
    · rw [← List.cons_append, ← List.append_assoc] at heq
      obtain ⟨hlog, hentry⟩ := List.append_inj' heq rfl
      cases hentry
      exact .inr ⟨hlater entry (by simp),
        before, change, later, hlog, hturns, fun e he => hlater e (List.mem_append_left _ he)⟩
  · rintro (hturns | ⟨hleaves, before, change, later, rfl, hturns, hlater⟩)
    · exact ⟨log, entry, [], rfl, hturns, by simp⟩
    · refine ⟨before, change, later ++ [entry], by simp, hturns, ?_⟩
      intro e he
      rcases List.mem_append.1 he with he | he
      · exact hlater e he
      · rw [List.mem_singleton.1 he]
        exact hleaves

namespace Controller

theorem perform_setBreakpoint (fuel : Nat) (c : Controller) (address : Word) (on : Bool) :
    c.perform fuel (.setBreakpoint address on) =
      match c.machine.listing.modifyBreakpoint? address fun _ => on with
      | none => (.refused (.notAProgramLine address), c)
      | some listing => (.done, { c with machine := { c.machine with listing } }) := by
  rw [perform, answer, Control.setBreakpoint, Control.run_changeListing, Listing.setBreakpoint?]
  cases c.machine.listing.modifyBreakpoint? address fun _ => on <;> rfl

theorem perform_toggleBreakpoint (fuel : Nat) (c : Controller) (address : Word) :
    c.perform fuel (.toggleBreakpoint address) =
      match c.machine.listing.modifyBreakpoint? address not with
      | none => (.refused (.notAProgramLine address), c)
      | some listing => (.breakpoint (listing.hasBreakpointAt address),
          { c with machine := { c.machine with listing } }) := by
  rw [perform, answer, Control.toggleBreakpoint, EStateM.run_bind, Control.run_changeListing,
    Listing.toggleBreakpoint?]
  cases c.machine.listing.modifyBreakpoint? address not <;> rfl

theorem perform_of_relists (fuel : Nat) (c : Controller) {op : Operation}
    (hrelists : (Event.call op).relists = true) (hop : op.reloads = false) :
    ∃ listing, (c.perform fuel op).2 = { c with machine := { c.machine with listing } } ∧
      listing.size = c.machine.listing.size := by
  cases op with
  | load | reset => cases hop
  | setBreakpoint address on =>
    rw [perform_setBreakpoint]
    split
    next => exact ⟨c.machine.listing, rfl, rfl⟩
    next listing hlisting => exact ⟨listing, rfl, Listing.size_modifyBreakpoint? hlisting⟩
  | toggleBreakpoint address =>
    rw [perform_toggleBreakpoint]
    split
    next => exact ⟨c.machine.listing, rfl, rfl⟩
    next listing hlisting => exact ⟨listing, rfl, Listing.size_modifyBreakpoint? hlisting⟩
  | clearBreakpoints => exact ⟨c.machine.listing.clearBreakpoints, rfl, Array.size_map⟩
  | _ => cases hrelists

/-- A controller with a program of some lines, whatever their breakpoints. -/
structure Listed (lines : List Line) (c : Controller) : Prop where
  wellFormed : c.machine.WellFormed
  indexed : c.machine.listing.Indexed
  rows : ∀ address, c.machine.listing.rowOf? address = (Listing.empty.pushAll lines).rowOf? address

namespace Listed

variable {lines : List Line} {c : Controller}

theorem of_run_load {image : Image} {c₀ : Controller} (h : c₀.machine.WellFormed)
    (hlines : image.lines = .ok lines) (hload : (Control.load image).run c₀ = .ok () c) :
    c.Listed lines ∧ c.machine.listing.breakpoints = [] := by
  obtain ⟨-, machine, hrun, rfl⟩ := Control.of_run_load hload
  rw [Machine.run_load, hlines] at hrun
  cases hrun
  obtain ⟨hfits, -, hrecords⟩ := Image.lines_eq_ok_iff.1 hlines
  have hindexed := c₀.machine.indexed_loadedWith hlines
  refine ⟨⟨?_, hindexed.listing, fun _ => rfl⟩, ?_⟩
  · exact (Machine.WellFormed.reset h).assign .pc _
  · -- The lines come from records, which have no breakpoints.
    change (Listing.empty.pushAll lines).breakpoints = []
    rw [Listing.breakpoints, Listing.toList_lines_pushAll, List.map_eq_nil_iff,
      List.filter_eq_nil_iff]
    intro line hline
    rw [Image.breakpoint_of_lines hlines hline]
    exact Bool.false_ne_true

theorem modifyBreakpoint?_eq_none_iff (h : c.Listed lines) {address : Word} {f : Bool → Bool} :
    c.machine.listing.modifyBreakpoint? address f = none ↔
      ¬∃ line ∈ lines, line.address = address := by
  rw [Listing.modifyBreakpoint?, Option.map_eq_none_iff, h.rows]
  constructor
  · rintro hnone ⟨line, hline, rfl⟩
    obtain ⟨row, hrow⟩ := exists_isLastRow hline
    cases hnone.symm.trans (Listing.rowOf?_pushAll_iff.2 hrow)
  · intro hline
    cases hrow : (Listing.empty.pushAll lines).rowOf? address with
    | none => rfl
    | some row =>
      have hlast := Listing.rowOf?_pushAll_iff.1 hrow
      obtain ⟨line, hget, haddress⟩ := Option.map_eq_some_iff.1 hlast.1
      exact (hline ⟨line, List.mem_of_getElem? hget, haddress⟩).elim

theorem modifyBreakpoint? (h : c.Listed lines) {address : Word} {f : Bool → Bool}
    {listing : Listing} (hlisting : c.machine.listing.modifyBreakpoint? address f = some listing) :
    Listed lines { c with machine := { c.machine with listing } } where
  wellFormed := h.wellFormed
  indexed := h.indexed.modifyBreakpoint? hlisting
  rows a := (Listing.rowOf?_modifyBreakpoint? hlisting a).trans (h.rows a)

theorem mem_breakpoints_modify (h : c.Listed lines) {address : Word} {f : Bool → Bool}
    {listing : Listing} (hlisting : c.machine.listing.modifyBreakpoint? address f = some listing)
    (a : Word) :
    a ∈ listing.breakpoints ↔
      if a = address then f (c.machine.listing.hasBreakpointAt address) = true
      else a ∈ c.machine.listing.breakpoints := by
  rw [Listing.mem_breakpoints_iff (h.indexed.modifyBreakpoint? hlisting),
    Listing.mem_breakpoints_iff h.indexed,
    Listing.hasBreakpointAt_modifyBreakpoint? h.indexed hlisting]
  split <;> rfl

/-- One operation: the program stays, and an address has a breakpoint if the operation turned it on,
or left it on. -/
theorem perform (h : c.Listed lines) {op : Operation} (hop : op.reloads = false) (fuel : Nat) :
    (c.perform fuel op).2.Listed lines ∧ ∀ a,
      a ∈ (c.perform fuel op).2.machine.listing.breakpoints ↔
        Turns a (op, (c.perform fuel op).1) true ∨
          Leaves a (op, (c.perform fuel op).1) ∧ a ∈ c.machine.listing.breakpoints := by
  cases hrelists : (Event.call op).relists with
  | false =>
    obtain ⟨output, -, hpassage⟩ := passage_after h.wellFormed hrelists fuel
    have hlisting : (c.perform fuel op).2.machine.listing = c.machine.listing :=
      hpassage.listing_eq
    have hstart : Machine.WellFormed { c.machine with output } := h.wellFormed
    constructor
    · exact ⟨hpassage.wellFormed hstart, hlisting ▸ h.indexed, hlisting ▸ h.rows⟩
    · intro a
      have hturns (reply : Reply) (on : Bool) : ¬Turns a (op, reply) on := by
        intro hturns
        cases hturns <;> cases hrelists
      have hclear : op ≠ .clearBreakpoints := by
        rintro rfl
        cases hrelists
      simp [hlisting, Leaves, hturns, hclear]
  | true =>
    cases op with
    | setBreakpoint address on =>
      rw [perform_setBreakpoint]
      cases hlisting : c.machine.listing.modifyBreakpoint? address fun _ => on with
      | none =>
        refine ⟨h, fun a => ?_⟩
        have hturns (on' : Bool) : ¬Turns a (.setBreakpoint address on,
            .refused (.notAProgramLine address)) on' := nofun
        simp [Leaves, hturns]
      | some listing =>
        refine ⟨h.modifyBreakpoint? hlisting, fun a => ?_⟩
        rw [turns_or_leaves_iff (by nofun) fun _ => turns_set_iff]
        exact h.mem_breakpoints_modify hlisting a
    | toggleBreakpoint address =>
      rw [perform_toggleBreakpoint]
      cases hlisting : c.machine.listing.modifyBreakpoint? address not with
      | none =>
        refine ⟨h, fun a => ?_⟩
        have hturns (on' : Bool) : ¬Turns a (.toggleBreakpoint address,
            .refused (.notAProgramLine address)) on' := nofun
        simp [Leaves, hturns]
      | some listing =>
        refine ⟨h.modifyBreakpoint? hlisting, fun a => ?_⟩
        have hnow := Listing.hasBreakpointAt_modifyBreakpoint? h.indexed hlisting address
        rw [if_pos rfl] at hnow
        rw [turns_or_leaves_iff (by nofun) fun _ => turns_toggle_iff, hnow]
        exact h.mem_breakpoints_modify hlisting a
    | clearBreakpoints =>
      constructor
      · exact ⟨h.wellFormed, h.indexed.clearBreakpoints, h.rows⟩
      · intro a
        have hturns (reply : Reply) (on : Bool) : ¬Turns a (.clearBreakpoints, reply) on := nofun
        have hmem : a ∉ (c.perform fuel .clearBreakpoints).2.machine.listing.breakpoints := by
          change a ∉ c.machine.listing.clearBreakpoints.breakpoints
          rw [Listing.mem_breakpoints_iff h.indexed.clearBreakpoints]
          simp
        simp [Leaves, hturns, hmem]
    | load | reset => cases hop
    | _ => cases hrelists

end Listed

theorem length_performAll (fuel : Nat) (c : Controller) (ops : List Operation) :
    (c.performAll fuel ops).1.length = ops.length := by
  induction ops generalizing c with
  | nil => rfl
  | cons op ops ih => simp [performAll, ih]

/-- Any number of operations: an address has a breakpoint exactly if the log of the operations says
that it was turned on. -/
theorem Listed.performAll {lines : List Line} {c : Controller} (h : c.Listed lines)
    (hnone : c.machine.listing.breakpoints = []) (fuel : Nat) {ops : List Operation}
    (hops : ∀ op ∈ ops, op.reloads = false) :
    (c.performAll fuel ops).2.Listed lines ∧
      ∀ a, a ∈ (c.performAll fuel ops).2.machine.listing.breakpoints ↔
        TurnedOn a (ops.zip (c.performAll fuel ops).1) := by
  induction ops using List.reverseRecOn with
  | nil =>
    refine ⟨h, fun a => ?_⟩
    simpa [Controller.performAll, hnone] using not_turnedOn_nil a
  | append_singleton ops op ih =>
    obtain ⟨hlisted, hmem⟩ := ih fun op hop => hops op (List.mem_append_left _ hop)
    have hstep := hlisted.perform (hops op (by simp)) fuel
    rw [performAll_append]
    refine ⟨hstep.1, fun a => ?_⟩
    dsimp only
    rw [List.zip_append (length_performAll fuel c ops).symm]
    exact (hstep.2 a).trans (by rw [hmem]; exact turnedOn_concat_iff.symm)

/-- The breakpoints of a program of some lines, after the operations in a log. -/
structure Edited (lines : List Line) (log : List (Operation × Reply)) (c : Controller) : Prop where
  setBreakpoint : ∀ fuel address on, (c.perform fuel (.setBreakpoint address on)).1 =
    if ∃ line ∈ lines, line.address = address then .done
    else .refused (.notAProgramLine address)
  toggleBreakpoint : ∀ fuel address, (c.perform fuel (.toggleBreakpoint address)).1 =
    if ∃ line ∈ lines, line.address = address then
      .breakpoint (decide (address ∉ c.machine.listing.breakpoints))
    else .refused (.notAProgramLine address)
  nodup : c.machine.listing.breakpoints.Nodup
  mem_iff : ∀ address, address ∈ c.machine.listing.breakpoints ↔ TurnedOn address log

theorem Listed.edited {lines : List Line} {log : List (Operation × Reply)} {c : Controller}
    (h : c.Listed lines)
    (hmem : ∀ a, a ∈ c.machine.listing.breakpoints ↔ TurnedOn a log) : c.Edited lines log where
  setBreakpoint := by
    intro fuel address on
    have hnone : c.machine.listing.modifyBreakpoint? address (fun _ => on) = none ↔ _ :=
      h.modifyBreakpoint?_eq_none_iff
    rw [perform_setBreakpoint]
    cases hlisting : c.machine.listing.modifyBreakpoint? address fun _ => on with
    | none => rw [if_neg (hnone.1 hlisting)]
    | some listing =>
      rw [if_pos (Decidable.not_not.1 fun hline => nomatch (hnone.2 hline).symm.trans hlisting)]
  toggleBreakpoint := by
    intro fuel address
    have hnone : c.machine.listing.modifyBreakpoint? address not = none ↔ _ :=
      h.modifyBreakpoint?_eq_none_iff
    rw [perform_toggleBreakpoint]
    cases hlisting : c.machine.listing.modifyBreakpoint? address not with
    | none => rw [if_neg (hnone.1 hlisting)]
    | some listing =>
      rw [if_pos (Decidable.not_not.1 fun hline => nomatch (hnone.2 hline).symm.trans hlisting)]
      have hnow := Listing.hasBreakpointAt_modifyBreakpoint? h.indexed hlisting address
      simp [Listing.mem_breakpoints_iff h.indexed, hnow]
  nodup := Listing.nodup_breakpoints h.indexed
  mem_iff := hmem

end Controller

end AccumulatorMachine
