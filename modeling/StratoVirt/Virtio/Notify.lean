import StratoVirt.Virtio.Vring

/-!
# Event-index interrupt suppression never drops an interrupt the driver asked for

With `VIRTIO_F_RING_EVENT_IDX`, the driver writes `used_event` after the avail
ring: "interrupt me once the used index passes this value". The device keeps
`last_signal_used`, the used index at its previous check, and
`used_ring_need_event` signals when `used_event` lies in the window the used
index swept since then — computed as one `Wrapping<u16>` comparison,
`new - used_event - 1 < new - old`. Two things can make that comparison
meaningless, and the code answers `true` for both: no previous check since the
queue was (re)started (`signal_used_valid` is false after `reset` and in the
copy `get_queue_config` hands out), and a full `2^16` turn of the used index
since the previous check (`add_used` clears `signal_used_valid` when
`next_used` comes round onto `last_signal_used`).

The statement is about what the guest sees. `notifyRun` runs any interleaving
of `add_used`, `should_notify` (with whatever `used_event` the guest wrote),
`reset` and restarts from `get_queue_config`, and records the observations:
each used index `add_used` published, each `should_notify` with the used index
and `used_event` in memory and its answer, and each restart. `notifyHist`
folds the observations before a call into what the call may depend on — the
used index at the previous call since the last restart, and whether `add_used`
has published that index again since — and `NotifyExpected` is the
condition on them under which the driver must be signalled.

> `shouldNotify_eventIdx`: every `should_notify` answers `true` exactly when
> `NotifyExpected` holds — it is the first since a restart, the used index
> has come full circle, or `used_event` lies in `[previous, current)` modulo
> `2^16`.

The window arithmetic is `Lib.inWindow_iff`; the rest is the invariant
`NotifyInv` tying `last_signal_used`/`signal_used_valid` to the history, kept
by each operation.
-/

namespace StratoVirt.Virtio

open StratoVirt.Lib

/-- One operation on a queue: the device completes a chain, asks whether to
interrupt (the driver having written `usedEvent`), resets the queue, or
restarts it from `get_queue_config`. -/
inductive NotifyEvent where
  | addUsed (index : UInt16) (len : Nat)
  | shouldNotify (usedEvent : UInt16)
  | reset
  | reload
  deriving Repr

/-- What the guest observes: a used index published by `add_used`; a
`should_notify` at used index `usedIdx` with `usedEvent` in memory, answering
`result`; a restart of the queue. -/
inductive NotifyObs where
  | wrote (idx : UInt16)
  | notified (usedIdx usedEvent : UInt16) (result : Bool)
  | restarted
  deriving Repr, DecidableEq

/-- Run the operations from a queue and its rings, recording observations. A
failed `add_used` (index out of range) changes nothing; a panic ends the run. -/
def notifyRun (features : Nat) : SplitVring → VringMem → List NotifyEvent → List NotifyObs
  | _, _, [] => []
  | v, mem, .addUsed index len :: evs =>
    match v.addUsed mem index len with
    | .ok (v', mem') => .wrote mem'.usedIdx :: notifyRun features v' mem' evs
    | .error (.rustPanic _) => []
    | .error _ => notifyRun features v mem evs
  | v, mem, .shouldNotify e :: evs =>
    let mem' := { mem with usedEvent := e }
    .notified mem'.usedIdx e (v.shouldNotify mem' features).1 ::
      notifyRun features (v.shouldNotify mem' features).2 mem' evs
  | v, mem, .reset :: evs =>
    .restarted :: notifyRun features { v with queueConfig := v.queueConfig.reset } mem evs
  | v, mem, .reload :: evs =>
    .restarted :: notifyRun features (SplitVring.new v.getQueueConfig) mem evs

/-- What the observations so far say about the next `should_notify`: the used
index at the previous call since the last restart, and whether `add_used` has
published that index again since. -/
structure NotifyHist where
  last : Option UInt16
  wrapped : Bool
  deriving Repr, DecidableEq

/-- Account for one more observation. -/
def NotifyHist.push (h : NotifyHist) : NotifyObs → NotifyHist
  | .wrote w => { h with wrapped := h.wrapped || h.last == some w }
  | .notified u _ _ => ⟨some u, false⟩
  | .restarted => ⟨none, false⟩

/-- The history of a list of observations. -/
def notifyHist (obs : List NotifyObs) : NotifyHist :=
  obs.foldl NotifyHist.push ⟨none, false⟩

theorem notifyHist_append_singleton (obs : List NotifyObs) (o : NotifyObs) :
    notifyHist (obs ++ [o]) = (notifyHist obs).push o := by
  simp [notifyHist, List.foldl_append]

/-- When the driver is owed an interrupt at used index `u` with `used_event`
`e`: nothing to compare with yet, a full turn of the used index, or `e` in the
window `[previous, u)` modulo `2^16`. -/
def NotifyExpected (h : NotifyHist) (u e : UInt16) : Prop :=
  match h.last with
  | none => True
  | some p => h.wrapped = true ∨ InWindow 65536 p.toNat u.toNat e.toNat

/-- `last_signal_used` is the used index of the previous call, and
`signal_used_valid` says that there was one and the used index has not come
round onto it since. -/
structure NotifyInv (h : NotifyHist) (v : SplitVring) : Prop where
  last : ∀ p, h.last = some p → v.queueConfig.lastSignalUsed = p
  valid : v.queueConfig.signalUsedValid = true ↔ h.last.isSome ∧ h.wrapped = false

/-! ## The wrapping test -/

theorem toNat_sub_eq_wrapSub (a b : UInt16) :
    (a - b).toNat = wrapSub 65536 a.toNat b.toNat := by
  rw [UInt16.toNat_sub, Lib.wrapSub, Nat.mod_eq_of_lt b.toNat_lt_size]
  show (65536 - b.toNat + a.toNat) % 65536 = (a.toNat + (65536 - b.toNat)) % 65536
  rw [Nat.add_comm]

/-- `new - used_event - 1 < new - old` over `Wrapping<u16>` is the window test. -/
theorem needEvent_iff_inWindow (new usedEvent old : UInt16) :
    decide (new - usedEvent - 1 < new - old) = true ↔
      InWindow 65536 old.toNat new.toNat usedEvent.toNat := by
  rw [decide_eq_true_iff, UInt16.lt_iff_toNat_lt, toNat_sub_eq_wrapSub, toNat_sub_eq_wrapSub,
    toNat_sub_eq_wrapSub]
  have hone : (1 : UInt16).toNat = 1 := rfl
  rw [hone, inWindow_iff (by decide) old.toNat_lt new.toNat_lt usedEvent.toNat_lt]

/-! ## Each operation keeps the invariant -/

/-- After a restart nothing is known and `signal_used_valid` is false. -/
theorem notifyInv_restart {v : SplitVring} (hv : v.queueConfig.signalUsedValid = false) :
    NotifyInv ⟨none, false⟩ v := by
  refine ⟨?_, ?_⟩
  · intro p hp
    cases hp
  · rw [hv]
    simp

theorem notifyInv_reset (h : NotifyHist) (v : SplitVring) :
    NotifyInv (h.push .restarted) { v with queueConfig := v.queueConfig.reset } :=
  notifyInv_restart rfl

theorem notifyInv_reload (h : NotifyHist) (v : SplitVring) :
    NotifyInv (h.push .restarted) (SplitVring.new v.getQueueConfig) :=
  notifyInv_restart rfl

/-- `add_used` publishes `next_used + 1`; it clears `signal_used_valid` exactly
when that is `last_signal_used`, i.e. the index of the previous call. -/
theorem notifyInv_addUsed {h : NotifyHist} {v v' : SplitVring} {mem mem' : VringMem}
    {index : UInt16} {len : Nat} (hinv : NotifyInv h v)
    (hadd : v.addUsed mem index len = .ok (v', mem')) :
    NotifyInv (h.push (.wrote mem'.usedIdx)) v' := by
  unfold SplitVring.addUsed at hadd
  split at hadd
  · cases hadd
  · split at hadd
    · cases hadd
    · simp only [Except.ok.injEq, Prod.mk.injEq] at hadd
      obtain ⟨rfl, rfl⟩ := hadd
      refine ⟨?_, ?_⟩
      · intro p hp
        have hl := hinv.last p hp
        split <;> exact hl
      · by_cases hwrap : v.queueConfig.nextUsed + 1 = v.queueConfig.lastSignalUsed
        · -- the used index came round onto `last_signal_used`
          rw [if_pos hwrap]
          simp only [NotifyHist.push, Bool.false_eq_true, false_iff, not_and]
          intro hsome
          obtain ⟨p, hp⟩ := Option.isSome_iff_exists.mp hsome
          rw [hp, hwrap, hinv.last p hp]
          simp
        · rw [if_neg hwrap]
          simp only [NotifyHist.push]
          rw [hinv.valid]
          constructor
          · rintro ⟨hsome, hw⟩
            refine ⟨hsome, ?_⟩
            obtain ⟨p, hp⟩ := Option.isSome_iff_exists.mp hsome
            rw [hw, hp]
            simp only [Bool.false_or, beq_eq_false_iff_ne, ne_eq, Option.some.injEq]
            intro hpw
            exact hwrap (by rw [← hpw, hinv.last p hp])
          · rintro ⟨hsome, hw⟩
            refine ⟨hsome, ?_⟩
            simp only [Bool.or_eq_false_iff] at hw
            exact hw.1

/-- With event index negotiated, `should_notify` answers as `NotifyExpected`
says, and records the current used index for the next call. -/
theorem notifyInv_shouldNotify {features : Nat}
    (hf : virtioHasFeature features VIRTIO_F_RING_EVENT_IDX = true)
    {h : NotifyHist} {v : SplitVring} (mem : VringMem) (hinv : NotifyInv h v) :
    ((v.shouldNotify mem features).1 = true ↔ NotifyExpected h mem.usedIdx mem.usedEvent) ∧
      NotifyInv (h.push (.notified mem.usedIdx mem.usedEvent (v.shouldNotify mem features).1))
        (v.shouldNotify mem features).2 := by
  simp only [SplitVring.shouldNotify, hf, if_true, SplitVring.usedRingNeedEvent]
  refine ⟨?_, ⟨fun p hp => by cases hp; rfl, by simp [NotifyHist.push]⟩⟩
  unfold NotifyExpected
  cases hvalid : v.queueConfig.signalUsedValid with
  | false =>
    -- no usable previous call: the code signals, as `NotifyExpected` says
    simp only [Bool.not_false, Bool.true_or, true_iff]
    cases hl : h.last with
    | none => trivial
    | some p =>
      have hw : h.wrapped = true := by
        have := hinv.valid
        rw [hvalid, hl] at this
        simpa using this
      exact Or.inl hw
  | true =>
    obtain ⟨hsome, hw⟩ := hinv.valid.mp hvalid
    obtain ⟨p, hp⟩ := Option.isSome_iff_exists.mp hsome
    simp only [Bool.not_true, Bool.false_or, hp, hw, Bool.false_eq_true, false_or]
    rw [hinv.last p hp]
    exact needEvent_iff_inWindow mem.usedIdx mem.usedEvent p

/-! ## Whole runs -/

/-- The observations before call `i + 1` of a run that starts with `o`. -/
theorem hist_take_succ (hist : List NotifyObs) (o : NotifyObs) (obs : List NotifyObs) (i : Nat) :
    hist ++ (o :: obs).take (i + 1) = (hist ++ [o]) ++ obs.take i := by
  simp

/-- The run lemma: from a state satisfying the invariant for history `hist`,
every `should_notify` of the run answers as `NotifyExpected` says for the
history up to it. -/
theorem notifyRun_expected {features : Nat}
    (hf : virtioHasFeature features VIRTIO_F_RING_EVENT_IDX = true) :
    ∀ (evs : List NotifyEvent) (v : SplitVring) (mem : VringMem) (hist : List NotifyObs),
      NotifyInv (notifyHist hist) v →
      ∀ i u e r, (notifyRun features v mem evs)[i]? = some (.notified u e r) →
        (r = true ↔ NotifyExpected (notifyHist (hist ++ (notifyRun features v mem evs).take i)) u e) := by
  intro evs
  induction evs with
  | nil =>
    intro v mem hist _ i u e r hi
    simp [notifyRun] at hi
  | cons ev evs ih =>
    intro v mem hist hinv i u e r hi
    -- every observation other than a `should_notify` is not the one asked about:
    -- it only moves the history on by one entry
    cases ev with
    | addUsed index len =>
      rcases hadd : v.addUsed mem index len with err | ⟨v', mem'⟩
      · -- a panic ends the run; any other failure leaves the queue as it was
        simp only [notifyRun, hadd] at hi ⊢
        cases err
        case rustPanic text => simp at hi
        all_goals exact ih v mem hist hinv i u e r hi
      · simp only [notifyRun, hadd] at hi ⊢
        cases i with
        | zero => simp at hi
        | succ i =>
          have hinv' : NotifyInv (notifyHist (hist ++ [.wrote mem'.usedIdx])) v' := by
            rw [notifyHist_append_singleton]
            exact notifyInv_addUsed hinv hadd
          rw [hist_take_succ]
          exact ih v' mem' _ hinv' i u e r hi
    | shouldNotify ev =>
      have hstep := notifyInv_shouldNotify hf { mem with usedEvent := ev } hinv
      simp only [notifyRun] at hi ⊢
      cases i with
      | zero =>
        -- the call asked about: the step lemma answers it
        simp only [List.getElem?_cons_zero, Option.some.injEq, NotifyObs.notified.injEq] at hi
        obtain ⟨rfl, rfl, rfl⟩ := hi
        simpa using hstep.1
      | succ i =>
        have hinv' := hstep.2
        rw [← notifyHist_append_singleton] at hinv'
        rw [hist_take_succ]
        exact ih _ _ _ hinv' i u e r hi
    | reset =>
      simp only [notifyRun] at hi ⊢
      cases i with
      | zero => simp at hi
      | succ i =>
        have hinv' : NotifyInv (notifyHist (hist ++ [.restarted]))
            { v with queueConfig := v.queueConfig.reset } := by
          rw [notifyHist_append_singleton]
          exact notifyInv_reset _ v
        rw [hist_take_succ]
        exact ih _ mem _ hinv' i u e r hi
    | reload =>
      simp only [notifyRun] at hi ⊢
      cases i with
      | zero => simp at hi
      | succ i =>
        have hinv' : NotifyInv (notifyHist (hist ++ [.restarted]))
            (SplitVring.new v.getQueueConfig) := by
          rw [notifyHist_append_singleton]
          exact notifyInv_reload _ v
        rw [hist_take_succ]
        exact ih _ mem _ hinv' i u e r hi

/-- **Event-index notification is exact.** With `VIRTIO_F_RING_EVENT_IDX`
negotiated, start from a queue as the device builds it from
`get_queue_config` and any ring memory, and run any interleaving of
`add_used`, `should_notify` (with any `used_event` the guest wrote), `reset`
and restarts. Then every `should_notify` answers `true` exactly when it is the
first call since a restart, or `add_used` has brought the used index back onto
its value at the previous call, or `used_event` lies in the half-open window
from that value to the current used index, modulo `2^16`. -/
theorem shouldNotify_eventIdx (features : Nat)
    (hf : virtioHasFeature features VIRTIO_F_RING_EVENT_IDX = true) (v : SplitVring)
    (mem : VringMem) (evs : List NotifyEvent) (i : Nat) (u e : UInt16) (r : Bool)
    (hi : (notifyRun features (SplitVring.new v.getQueueConfig) mem evs)[i]? =
      some (.notified u e r)) :
    r = true ↔ NotifyExpected
      (notifyHist ((notifyRun features (SplitVring.new v.getQueueConfig) mem evs).take i)) u e := by
  have h0 : NotifyInv (notifyHist []) (SplitVring.new v.getQueueConfig) := notifyInv_restart rfl
  simpa using notifyRun_expected hf evs _ mem [] h0 i u e r hi

/-- Two chains completed between two calls: the used index moved from `0` to
`2`, and the driver asked to hear once it passes `1`. -/
theorem shouldNotify_eventIdx_window :
    virtioHasFeature (2 ^ 29) VIRTIO_F_RING_EVENT_IDX = true ∧
      (notifyRun (2 ^ 29) (SplitVring.new (SplitVring.new (QueueConfig.new 4)).getQueueConfig)
        ⟨0, 0, fun _ => 0, 0, 0, 0, fun _ => ⟨0, 0⟩, 0⟩
        [.shouldNotify 0, .addUsed 0 1, .addUsed 1 1, .shouldNotify 1])[3]? =
        some (.notified 2 1 true) ∧
      (true = true ↔ NotifyExpected (notifyHist
        ((notifyRun (2 ^ 29) (SplitVring.new (SplitVring.new (QueueConfig.new 4)).getQueueConfig)
          ⟨0, 0, fun _ => 0, 0, 0, 0, fun _ => ⟨0, 0⟩, 0⟩
          [.shouldNotify 0, .addUsed 0 1, .addUsed 1 1, .shouldNotify 1]).take 3)) 2 1) :=
  ⟨by decide, by decide, shouldNotify_eventIdx (2 ^ 29) (by decide) _ _ _ 3 2 1 true (by decide)⟩

end StratoVirt.Virtio
