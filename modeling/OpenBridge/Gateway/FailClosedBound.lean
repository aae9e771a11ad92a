import Mathlib.Order.Interval.Finset.Nat
import OpenBridge.Gateway.RedisRateLimiter

/-!
# Gateway: what a fail-closed class lets through in one window

Redis and the process each count a request of a class once, and neither knows what the other has
counted.  So each of them keeps to the limit in a window, and the two together may not.
-/

namespace OpenBridge.Gateway

open OpenBridge.Foundation

def Checked.key (o : RateLimiting) (c : Checked) : CounterKey := classKey o c.request c.now

variable (o : RateLimiting) (key : CounterKey)

def allowedCount (checked : List Checked) : ℕ :=
  checked.countP fun c => c.key o = key ∧ c.decision.allowed = true

def answeredWithin (checked : List Checked) : ℕ :=
  checked.countP fun c => c.key o = key ∧
    c.answer.any fun counts => counts.1 ≤ o.limit key.routeClass ∧ counts.2 ≤ o.limit .global

def unanswered (checked : List Checked) : ℕ :=
  checked.countP fun c => c.key o = key ∧ c.answer = none

/-- The window of a key has not begun: nothing is counted under it, and the calls under way belong
to earlier windows. -/
structure NotBegun (s : RedisRateLimiter) : Prop where
  redis : s.redis key = 0
  locals : s.locals.counts key = 0
  inFlight : ∀ call ∈ s.inFlight, windowStart o call.now < key.windowStart

/-! ## One step of the parts -/

variable {o key}

theorem allowed_decide_iff {cls : RouteClass} {a b r : ℕ} {source : DecisionSource} :
    (RateLimitDecision.decide o cls a b r source).allowed = true ↔
      a ≤ o.limit cls ∧ b ≤ o.limit .global := by
  unfold RateLimitDecision.decide
  split
  · rename_i h
    exact iff_of_false Bool.false_ne_true fun hle => absurd hle.1 (not_le.mpr h)
  · rename_i h
    split
    · rename_i h'
      exact iff_of_false Bool.false_ne_true fun hle => absurd hle.2 (not_le.mpr h')
    · rename_i h'
      exact iff_of_true rfl ⟨not_lt.mp h, not_lt.mp h'⟩

theorem counts_increment {c : LocalWindowCounter} {other : CounterKey} {seconds : ℕ}
    (h : other.windowStart ≤ key.windowStart) :
    (c.increment other other.windowStart seconds).1.counts key =
      c.counts key + if other = key then 1 else 0 := by
  have hswept : (c.sweepBefore (other.windowStart - seconds)).counts key = c.counts key := by
    unfold LocalWindowCounter.sweepBefore
    split
    · rfl
    · have hkept : ¬ (key.windowStart : ℤ) < other.windowStart - seconds := by omega
      dsimp only
      rw [if_neg hkept]
  unfold LocalWindowCounter.increment
  dsimp only
  split
  · rename_i heq
    subst heq
    rw [Function.update_self, hswept]
  · rename_i hne
    rw [Function.update_of_ne (Ne.symm hne), hswept, Nat.add_zero]

theorem count_increment {c : LocalWindowCounter} {seconds : ℕ} :
    (c.increment key key.windowStart seconds).2 = c.counts key + 1 := by
  have h := @counts_increment key c key seconds (le_refl key.windowStart)
  rw [if_pos rfl] at h
  rw [← h]
  unfold LocalWindowCounter.increment
  dsimp only
  rw [Function.update_self]

/-! ## What holds within the window -/

def redisCounts (o : RateLimiting) (key : CounterKey) (checked : List Checked) : List ℕ :=
  checked.filterMap fun c => if c.key o = key then c.answer.map Prod.fst else none

def flightCounts (o : RateLimiting) (key : CounterKey) (calls : List RedisCall) : List ℕ :=
  calls.filterMap fun call =>
    if classKey o call.request call.now = key then call.counted.map Prod.fst else none

/-- The process has counted the requests that Redis did not answer, and let through as many of them
as the limit says; Redis never returned a count twice. -/
structure Counted (o : RateLimiting) (key : CounterKey) (s : RedisRateLimiter)
    (checked : List Checked) : Prop where
  locals : s.locals.counts key = unanswered o key checked
  enforced : checked.countP (fun c => c.key o = key ∧ c.answer = none ∧ c.decision.allowed = true) =
    min (unanswered o key checked) (o.limit key.routeClass)
  decided : ∀ c ∈ checked, c.key o = key → ∀ counts, c.answer = some counts →
    (c.decision.allowed = true ↔
      counts.1 ≤ o.limit key.routeClass ∧ counts.2 ≤ o.limit .global)
  inFlight : ∀ call ∈ s.inFlight, windowStart o call.now ≤ key.windowStart
  distinct : (redisCounts o key checked ++ flightCounts o key s.inFlight).Nodup
  bounded : ∀ a ∈ redisCounts o key checked ++ flightCounts o key s.inFlight,
    0 < a ∧ a ≤ s.redis key

theorem NotBegun.flightCounts_eq_nil {s : RedisRateLimiter} (h : NotBegun o key s) :
    flightCounts o key s.inFlight = [] := by
  refine List.filterMap_eq_nil_iff.mpr fun call hcall => if_neg ?_
  rintro rfl
  exact lt_irrefl _ (h.inFlight call hcall)

theorem NotBegun.counted {s : RedisRateLimiter} (h : NotBegun o key s) : Counted o key s [] where
  locals := h.locals
  enforced := (Nat.zero_min _).symm
  decided := nofun
  inFlight call hcall := (h.inFlight call hcall).le
  distinct := by
    rw [h.flightCounts_eq_nil]
    exact List.nodup_nil
  bounded := by
    rw [h.flightCounts_eq_nil]
    exact nofun

variable {s : RedisRateLimiter} {checked : List Checked}

theorem redisCounts_concat (checked : List Checked) (c : Checked) :
    redisCounts o key (checked ++ [c]) =
      redisCounts o key checked ++
        (if c.key o = key then c.answer.map Prod.fst else none).toList := by
  unfold redisCounts
  rw [List.filterMap_append]
  cases h : (if c.key o = key then c.answer.map Prod.fst else none) with
  | none => simp [h]
  | some a => simp [h]

theorem flightCounts_cons (call : RedisCall) (calls : List RedisCall) :
    flightCounts o key (call :: calls) =
      (if classKey o call.request call.now = key then call.counted.map Prod.fst else none).toList ++
        flightCounts o key calls := by
  unfold flightCounts
  rw [List.filterMap_cons]
  cases (if classKey o call.request call.now = key then call.counted.map Prod.fst else none) with
  | none => rfl
  | some a => rfl

theorem flightCounts_perm {call : RedisCall} {calls : List RedisCall} (h : call ∈ calls) :
    (flightCounts o key calls).Perm
      ((if classKey o call.request call.now = key then call.counted.map Prod.fst
        else none).toList ++ flightCounts o key (calls.erase call)) := by
  rw [← flightCounts_cons]
  exact (List.perm_cons_erase h).filterMap _

theorem Counted.erase (h : Counted o key s checked) (call : RedisCall) (circuit : RedisCircuit) :
    Counted o key { s with circuit := circuit, inFlight := s.inFlight.erase call } checked := by
  have hsub : (redisCounts o key checked ++ flightCounts o key (s.inFlight.erase call)).Sublist
      (redisCounts o key checked ++ flightCounts o key s.inFlight) :=
    (List.Sublist.refl _).append (List.erase_sublist.filterMap _)
  exact ⟨h.locals, h.enforced, h.decided, fun c hc => h.inFlight c (List.mem_of_mem_erase hc),
    h.distinct.sublist hsub, fun a ha => h.bounded a (hsub.subset ha)⟩

theorem Counted.inProcess (h : Counted o key s checked) {c : Checked} {locals : LocalWindowCounter}
    (hnone : c.answer = none)
    (hlocals : locals.counts key = s.locals.counts key + if c.key o = key then 1 else 0)
    (hallowed : c.key o = key →
      (c.decision.allowed = true ↔ s.locals.counts key + 1 ≤ o.limit key.routeClass)) :
    Counted o key { s with locals := locals } (checked ++ [c]) := by
  have hcounts : redisCounts o key (checked ++ [c]) = redisCounts o key checked := by
    rw [redisCounts_concat, hnone]
    simp
  refine ⟨?_, ?_, ?_, h.inFlight, by rw [hcounts]; exact h.distinct,
    by rw [hcounts]; exact h.bounded⟩
  · unfold unanswered
    rw [List.countP_append, List.countP_singleton, hlocals, h.locals]
    simp [unanswered, hnone]
  · have henforced := h.enforced
    have hn := h.locals
    unfold unanswered at henforced hn ⊢
    rw [List.countP_append, List.countP_singleton, henforced, List.countP_append,
      List.countP_singleton]
    by_cases hkey : c.key o = key
    · rw [hn] at hallowed
      by_cases hle : c.decision.allowed = true
      · have := (hallowed hkey).mp hle
        simp only [hkey, hnone, hle, true_and, decide_true, if_true]
        omega
      · have := mt (hallowed hkey).mpr hle
        simp only [hkey, hnone, hle, and_false, decide_false, and_self, decide_true, if_true,
          Bool.false_eq_true, if_false]
        omega
    · simp [hkey]
  · intro d hd hkey counts hanswer
    rcases List.mem_append.mp hd with hd | hd
    · exact h.decided d hd hkey counts hanswer
    · obtain rfl := List.mem_singleton.mp hd
      rw [hnone] at hanswer
      cases hanswer

theorem decideLocally_of_failOpen {request : RateLimitRequest} {now : ℕ}
    (h : request.cls.failClosed = false) :
    s.decideLocally o request now = (s, [⟨request, now, none, ⟨true, 0, .failOpen, none⟩⟩]) := by
  unfold RedisRateLimiter.decideLocally
  rw [h]
  rfl

theorem decideLocally_of_failClosed {request : RateLimitRequest} {now : ℕ}
    (h : request.cls.failClosed = true) :
    s.decideLocally o request now =
      ({ s with
          locals := (s.locals.increment (classKey o request now) (windowStart o now)
            o.windowSeconds).1 },
        [⟨request, now, none,
          RateLimitDecision.decide o request.cls
            (s.locals.increment (classKey o request now) (windowStart o now) o.windowSeconds).2 0
            (retryAfter o now) .localCounters⟩]) := by
  unfold RedisRateLimiter.decideLocally
  rw [h]
  rfl

theorem Counted.decideLocally (h : Counted o key s checked)
    (hclosed : key.routeClass.failClosed = true) {request : RateLimitRequest} {now : ℕ}
    (hwindow : windowStart o now ≤ key.windowStart) :
    Counted o key (s.decideLocally o request now).1
      (checked ++ (s.decideLocally o request now).2) := by
  cases hcls : request.cls.failClosed with
  | false =>
    rw [decideLocally_of_failOpen hcls]
    -- a class that passes is not the class of the key
    have hkey : classKey o request now ≠ key := by
      rintro rfl
      rw [show (classKey o request now).routeClass = request.cls from rfl, hcls] at hclosed
      cases hclosed
    refine h.inProcess rfl ?_ fun heq => absurd heq hkey
    unfold Checked.key
    rw [if_neg hkey, Nat.add_zero]
  | true =>
    rw [decideLocally_of_failClosed hcls]
    refine h.inProcess rfl (@counts_increment key _ (classKey o request now) _ hwindow) ?_
    intro hkey
    rw [allowed_decide_iff]
    subst hkey
    rw [show windowStart o now = (classKey o request now).windowStart from rfl, count_increment]
    exact and_iff_left (Nat.zero_le _)

theorem globalKey_ne (hclosed : key.routeClass.failClosed = true) (request : RateLimitRequest)
    (now : ℕ) : globalKey o request now ≠ key := by
  rintro rfl
  cases hclosed

theorem runScript_key {redis : CounterKey → ℕ} {ck gk : CounterKey} (h : gk ≠ key) :
    (RedisRateLimiter.runScript redis ck gk).1 key = redis key + if ck = key then 1 else 0 := by
  unfold RedisRateLimiter.runScript
  dsimp only
  rw [Function.update_of_ne h.symm]
  split
  · rename_i heq
    subst heq
    rw [Function.update_self]
  · rename_i hne
    rw [Function.update_of_ne (Ne.symm hne), Nat.add_zero]

theorem runScript_count {redis : CounterKey → ℕ} {ck gk : CounterKey} :
    (RedisRateLimiter.runScript redis ck gk).2.1 = redis ck + 1 := by
  unfold RedisRateLimiter.runScript
  dsimp only
  rw [Function.update_self]

theorem le_runScript {redis : CounterKey → ℕ} {ck gk : CounterKey} :
    redis key ≤ (RedisRateLimiter.runScript redis ck gk).1 key := by
  have hfirst : redis key ≤ Function.update redis ck (redis ck + 1) key := by
    rw [Function.update_apply]
    split
    · rename_i heq
      rw [heq]
      exact Nat.le_succ _
    · exact le_rfl
  unfold RedisRateLimiter.runScript
  dsimp only
  refine hfirst.trans ?_
  rw [Function.update_apply (Function.update redis ck (redis ck + 1)) gk]
  split
  · rename_i heq
    rw [heq]
    exact Nat.le_succ _
  · exact le_rfl

theorem Counted.executed (h : Counted o key s checked) {call : RedisCall}
    (hcall : call ∈ s.inFlight) (hnone : call.counted = none) {gk : CounterKey}
    (hglobal : gk ≠ key) :
    Counted o key
      { s with
        redis := (RedisRateLimiter.runScript s.redis (classKey o call.request call.now) gk).1
        inFlight := { call with
          counted := some
            (RedisRateLimiter.runScript s.redis (classKey o call.request call.now) gk).2 } ::
            s.inFlight.erase call } checked := by
  have hflight := @flightCounts_perm o key _ _ hcall
  rw [hnone, Option.map_none, ite_self, Option.toList_none, List.nil_append] at hflight
  have hperm := List.Perm.append_left (redisCounts o key checked) hflight
  have hdistinct := hperm.nodup_iff.mp h.distinct
  have hbounded : ∀ a ∈ redisCounts o key checked ++ flightCounts o key (s.inFlight.erase call),
      0 < a ∧ a ≤ s.redis key := fun a ha => h.bounded a (hperm.mem_iff.mpr ha)
  refine ⟨h.locals, h.enforced, h.decided, ?_, ?_, ?_⟩
  · intro c hc
    rcases List.mem_cons.mp hc with rfl | hc
    · exact h.inFlight call hcall
    · exact h.inFlight c (List.mem_of_mem_erase hc)
  · rw [flightCounts_cons]
    dsimp only
    split
    · rename_i hkey
      refine (List.perm_append_comm_assoc _ _ _).nodup_iff.mpr ?_
      rw [Option.map_some, runScript_count, hkey]
      refine List.nodup_cons.mpr ⟨fun hmem => ?_, hdistinct⟩
      exact absurd (hbounded _ hmem).2 (Nat.not_succ_le_self _)
    · exact hdistinct
  · intro a ha
    rw [flightCounts_cons] at ha
    dsimp only at ha ⊢
    rw [runScript_key hglobal]
    split at ha
    · rename_i hkey
      rw [if_pos hkey]
      rw [(List.perm_append_comm_assoc _ _ _).mem_iff, Option.map_some, runScript_count, hkey] at ha
      rcases List.mem_cons.mp ha with rfl | ha
      · exact ⟨Nat.succ_pos _, le_rfl⟩
      · exact ⟨(hbounded a ha).1, (hbounded a ha).2.trans (Nat.le_succ _)⟩
    · rename_i hkey
      rw [if_neg hkey, Nat.add_zero]
      exact hbounded a ha

theorem Counted.grown (h : Counted o key s checked) {redis : CounterKey → ℕ}
    (hgrown : s.redis key ≤ redis key) : Counted o key { s with redis := redis } checked :=
  ⟨h.locals, h.enforced, h.decided, h.inFlight, h.distinct,
    fun a ha => ⟨(h.bounded a ha).1, (h.bounded a ha).2.trans hgrown⟩⟩

theorem Counted.answered (h : Counted o key s checked) {call : RedisCall}
    (hcall : call ∈ s.inFlight) {c : Checked} {counts : ℕ × ℕ}
    (hcounted : call.counted = some counts)
    (hkey : c.key o = classKey o call.request call.now) (hanswer : c.answer = some counts)
    (hdecided : c.key o = key → (c.decision.allowed = true ↔
      counts.1 ≤ o.limit key.routeClass ∧ counts.2 ≤ o.limit .global))
    (circuit : RedisCircuit) :
    Counted o key { s with circuit := circuit, inFlight := s.inFlight.erase call }
      (checked ++ [c]) := by
  have hflight := @flightCounts_perm o key _ _ hcall
  -- the count moves from the calls under way to the answered ones
  have hperm : (redisCounts o key checked ++ flightCounts o key s.inFlight).Perm
      (redisCounts o key (checked ++ [c]) ++ flightCounts o key (s.inFlight.erase call)) := by
    rw [redisCounts_concat, hkey, hanswer, ← hcounted, List.append_assoc]
    exact List.Perm.append_left _ hflight
  refine ⟨?_, ?_, ?_, fun d hd => h.inFlight d (List.mem_of_mem_erase hd),
    hperm.nodup_iff.mp h.distinct, fun a ha => h.bounded a (hperm.mem_iff.mpr ha)⟩
  · rw [h.locals]
    unfold unanswered
    rw [List.countP_append, List.countP_singleton, hanswer]
    simp
  · have henforced := h.enforced
    unfold unanswered at henforced ⊢
    rw [List.countP_append, List.countP_append, henforced, List.countP_singleton,
      List.countP_singleton, hanswer]
    simp
  · intro d hd hdkey counts' hd'
    rcases List.mem_append.mp hd with hd | hd
    · exact h.decided d hd hdkey counts' hd'
    · obtain rfl := List.mem_singleton.mp hd
      rw [hanswer] at hd'
      obtain rfl := Option.some.inj hd'
      exact hdecided hdkey

theorem Counted.step (h : Counted o key s checked) (hclosed : key.routeClass.failClosed = true)
    (e : LimiterEvent)
    (hwindow : ∀ request now, e = .arrived request now → windowStart o now ≤ key.windowStart) :
    Counted o key (s.step o e).1 (checked ++ (s.step o e).2) := by
  have hsame : Counted o key s (checked ++ []) := by
    rw [List.append_nil]
    exact h
  unfold RedisRateLimiter.step
  cases e with
  | arrived request now =>
    have hnow := hwindow request now rfl
    dsimp only
    split
    · exact h.decideLocally hclosed hnow
    · rw [List.append_nil]
      refine ⟨h.locals, h.enforced, h.decided, List.forall_mem_cons.mpr ⟨hnow, h.inFlight⟩, ?_, ?_⟩
      · rw [flightCounts_cons, Option.map_none, ite_self]
        exact h.distinct
      · rw [flightCounts_cons, Option.map_none, ite_self]
        exact h.bounded
  | executed call =>
    dsimp only
    split
    · rename_i hcall
      rw [List.append_nil]
      exact h.executed hcall.1 hcall.2 (globalKey_ne hclosed _ _)
    · exact hsame
  | executedElsewhere ck gk =>
    rw [List.append_nil]
    exact h.grown le_runScript
  | answered call =>
    dsimp only
    split
    · exact hsame
    · rename_i a b hcounted
      split
      · rename_i hcall
        refine h.answered hcall hcounted rfl rfl ?_ _
        rintro rfl
        exact allowed_decide_iff
      · exact hsame
  | failed call =>
    dsimp only
    split
    · rename_i hcall
      exact (h.erase call _).decideLocally hclosed (h.inFlight call hcall)
    · exact hsame
  | aborted call =>
    rw [List.append_nil]
    exact h.erase call s.circuit

theorem counted_outputs (hclosed : key.routeClass.failClosed = true) (h : NotBegun o key s)
    (events : List LimiterEvent)
    (hwindow : ∀ request now, .arrived request now ∈ events →
      windowStart o now ≤ key.windowStart) :
    Counted o key (Machine.stateAfter (RedisRateLimiter.step o) s events)
      (Machine.outputs (RedisRateLimiter.step o) s events) := by
  induction events using List.reverseRecOn with
  | nil => exact h.counted
  | append_singleton events e ih =>
    rw [Machine.stateAfter_concat, Machine.outputs_concat]
    have hbefore := ih fun request now hmem => hwindow request now (List.mem_append_left _ hmem)
    refine hbefore.step hclosed e ?_
    rintro request now rfl
    exact hwindow request now List.mem_concat_self

/-! ## The bound -/

theorem Counted.answeredWithin_le (h : Counted o key s checked) :
    answeredWithin o key checked ≤ o.limit key.routeClass := by
  have hnodup : (redisCounts o key checked).Nodup := h.distinct.of_append_left
  have hle : answeredWithin o key checked ≤
      (redisCounts o key checked).countP fun a => a ≤ o.limit key.routeClass := by
    unfold answeredWithin redisCounts
    rw [List.countP_filterMap]
    refine List.countP_mono_left fun c _ hc => ?_
    obtain ⟨hkey, hany⟩ := of_decide_eq_true hc
    rw [if_pos hkey]
    cases hanswer : c.answer with
    | none =>
      rw [hanswer] at hany
      cases hany
    | some counts =>
      rw [hanswer] at hany
      exact decide_eq_true (of_decide_eq_true hany).1
  refine hle.trans ?_
  rw [List.countP_eq_length_filter]
  have hsub : ((redisCounts o key checked).filter fun a => a ≤ o.limit key.routeClass).toFinset ⊆
      Finset.Icc 1 (o.limit key.routeClass) := by
    intro a ha
    obtain ⟨hmem, hlimit⟩ := List.mem_filter.mp (List.mem_toFinset.mp ha)
    exact Finset.mem_Icc.mpr ⟨(h.bounded a (List.mem_append_left _ hmem)).1,
      of_decide_eq_true hlimit⟩
  have hcard := Finset.card_le_card hsub
  rwa [List.toFinset_card_of_nodup (hnodup.filter _), Nat.card_Icc, Nat.add_sub_cancel] at hcard

theorem Counted.allowedCount_eq (h : Counted o key s checked) :
    allowedCount o key checked = min (unanswered o key checked) (o.limit key.routeClass) +
      answeredWithin o key checked := by
  rw [← h.enforced]
  unfold allowedCount answeredWithin
  rw [List.countP_eq_countP_filter_add checked _ fun c => c.answer.isNone, List.countP_filter,
    List.countP_filter]
  refine congrArg₂ (· + ·) (List.countP_congr fun c _ => ?_) (List.countP_congr fun c hc => ?_)
  · simp only [Bool.and_eq_true, decide_eq_true_eq, Option.isNone_iff_eq_none]
    exact ⟨fun ⟨⟨hkey, hallowed⟩, hnone⟩ => ⟨hkey, hnone, hallowed⟩,
      fun ⟨hkey, hnone, hallowed⟩ => ⟨⟨hkey, hallowed⟩, hnone⟩⟩
  · cases hanswer : c.answer with
    | none => simp
    | some counts =>
      simp only [Bool.and_eq_true, decide_eq_true_eq, Option.isNone_some, Bool.not_false, and_true,
        Option.any_some]
      exact and_congr_right fun hkey => h.decided c hc hkey counts hanswer

/-- In one window, in every interleaving, what a fail-closed class lets through of one client is
within its limit exactly when Redis let nothing through, or answered everything in time, or what it
let through and did not answer is together within the limit. -/
theorem allowedCount_le_limit_iff (hclosed : key.routeClass.failClosed = true)
    (h : NotBegun o key s) (events : List LimiterEvent)
    (hwindow : ∀ request now, .arrived request now ∈ events →
      windowStart o now ≤ key.windowStart) :
    allowedCount o key (Machine.outputs (RedisRateLimiter.step o) s events) ≤
        o.limit key.routeClass ↔
      answeredWithin o key (Machine.outputs (RedisRateLimiter.step o) s events) = 0 ∨
        unanswered o key (Machine.outputs (RedisRateLimiter.step o) s events) = 0 ∨
        answeredWithin o key (Machine.outputs (RedisRateLimiter.step o) s events) +
          unanswered o key (Machine.outputs (RedisRateLimiter.step o) s events) ≤
            o.limit key.routeClass := by
  have hcounted := counted_outputs hclosed h events hwindow
  have hwithin := hcounted.answeredWithin_le
  rw [hcounted.allowedCount_eq]
  omega

def attempt : RateLimitRequest := ⟨.login, "10.0.0.1", "10.0.0.1"⟩

def noon : ℕ := 17896464000000000

def answeredAttempts (counts : List ℕ) : List LimiterEvent :=
  counts.flatMap fun n =>
    [.arrived attempt noon, .executed ⟨attempt, noon, none⟩,
      .answered ⟨attempt, noon, some (n, n)⟩]

def failedAttempt : List LimiterEvent :=
  [.arrived attempt noon, .failed ⟨attempt, noon, none⟩]

theorem allowedCount_le_limit_iff_attempts :
    allowedCount .default (classKey .default attempt noon)
        (Machine.outputs (RedisRateLimiter.step .default) (.new fun _ => 0)
          (answeredAttempts [1, 2] ++ failedAttempt)) ≤
        RateLimiting.default.limit .login ↔
      answeredWithin .default (classKey .default attempt noon)
          (Machine.outputs (RedisRateLimiter.step .default) (.new fun _ => 0)
            (answeredAttempts [1, 2] ++ failedAttempt)) = 0 ∨
        unanswered .default (classKey .default attempt noon)
          (Machine.outputs (RedisRateLimiter.step .default) (.new fun _ => 0)
            (answeredAttempts [1, 2] ++ failedAttempt)) = 0 ∨
        answeredWithin .default (classKey .default attempt noon)
            (Machine.outputs (RedisRateLimiter.step .default) (.new fun _ => 0)
              (answeredAttempts [1, 2] ++ failedAttempt)) +
          unanswered .default (classKey .default attempt noon)
            (Machine.outputs (RedisRateLimiter.step .default) (.new fun _ => 0)
              (answeredAttempts [1, 2] ++ failedAttempt)) ≤ RateLimiting.default.limit .login := by
  refine allowedCount_le_limit_iff rfl
    ⟨rfl, rfl, fun call hcall => absurd hcall List.not_mem_nil⟩ _ ?_
  intro request now hmem
  simp only [answeredAttempts, failedAttempt, List.flatMap_cons, List.flatMap_nil, List.cons_append,
    List.nil_append, List.mem_cons, LimiterEvent.arrived.injEq, reduceCtorEq, List.not_mem_nil,
    false_or, or_false, or_self] at hmem
  obtain ⟨rfl, rfl⟩ := hmem
  exact le_rfl

/-- Redis lets ten attempts through, which is the limit, and the call for the next one fails: the
process counts it as its first. -/
theorem not_allowedCount_le_limit :
    ¬ allowedCount .default (classKey .default attempt noon)
        (Machine.outputs (RedisRateLimiter.step .default) (.new fun _ => 0)
          (answeredAttempts [1, 2, 3, 4, 5, 6, 7, 8, 9, 10] ++ failedAttempt)) ≤
      RateLimiting.default.limit .login := by
  decide

end OpenBridge.Gateway
