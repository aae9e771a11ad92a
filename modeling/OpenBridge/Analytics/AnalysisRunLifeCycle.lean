import OpenBridge.Analytics.AnalysisRunStore
import OpenBridge.Foundation.Slots

/-!
# Analytics: the life cycle of a bounded run

Every mark finds the run as its writer left it, except where two polls give it two ends; and a key
has one run, except where two requests look it up before either inserts.
-/

namespace OpenBridge.Analytics

open OpenBridge.Foundation

namespace CplmRecomputeService

open AnalysisRunStore Slots

def Settled (r : AnalysisRun) : Bool := r.flinkJobId.isSome || r.state.terminal

def Request.isAnswered (r : Request) : Bool :=
  match r.progress with
  | .answered _ => true
  | _ => false

/-- A request of a key has inserted its run and not submitted it. -/
def Request.unsubmitted (key : Option String) (r : Request) : Bool :=
  match r.progress with
  | .uploading => r.run.isSome && r.request.idempotencyKey = key
  | .submitting => r.run.isSome && r.request.idempotencyKey = key
  | _ => false

def Submission.startedFor (key : Option String) (b : Submission) : Bool :=
  b.idempotencyKey = key && b.jobStarted

def jobs (s : AnalysisRuns) (key : Option String) : ℕ :=
  s.submissions.countP (Submission.startedFor key)

def Poll.inFlight (p : Poll) : Bool :=
  match p.progress with
  | .answered _ _ => false
  | _ => true

def KeyIsFree (runs : List AnalysisRun) (r : Request) : Bool :=
  match r.progress with
  | .inserting =>
      isKey r.request.idempotencyKey = false ∨
        ∀ run ∈ runs, run.idempotencyKey ≠ r.request.idempotencyKey
  | _ => true

/-- A poll that marks leaves the end of a run as it is. -/
def KeepsEnd (runs : List AnalysisRun) (p : Poll) : Bool :=
  match p.progress with
  | .marking state => ∀ run ∈ runs, run.analysisRunId = p.analysisRunId →
      run.state.terminal = true → run.state = state
  | _ => true

/-- A step that inserts a key that names no run, ends in no exception that is left uncaught, and marks
no run that another poll has ended otherwise. -/
def InOrder (s : AnalysisRuns) : Event → Bool
  | .insert k _ _ => s.requests[k]?.all (KeyIsFree s.runs)
  | .upload _ (.exception _) => false
  | .submit _ (.accepted jobId) => isKey jobId
  | .submit _ (.unreadable _) => false
  | .markPolled k _ => s.polls[k]?.all (KeepsEnd s.runs)
  | _ => true

/-! ## The rows that a mark leaves -/

section Mark

variable {runs : List AnalysisRun} {id i : Guid} {m : Mark} {now : ℤ}

theorem mark_ids : (mark runs id m now).map AnalysisRun.analysisRunId =
    runs.map AnalysisRun.analysisRunId := by
  unfold AnalysisRunStore.mark
  rw [List.map_map]
  refine List.map_congr_left fun r _ => ?_
  rw [Function.comp_apply]
  split
  · rfl
  · rfl

theorem mark_keys : (mark runs id m now).map AnalysisRun.idempotencyKey =
    runs.map AnalysisRun.idempotencyKey := by
  unfold AnalysisRunStore.mark
  rw [List.map_map]
  refine List.map_congr_left fun r _ => ?_
  rw [Function.comp_apply]
  split
  · rfl
  · rfl

theorem exists_key_mark {key : Option String} (h : ∃ r ∈ runs, r.idempotencyKey = key) :
    ∃ r ∈ mark runs id m now, r.idempotencyKey = key := by
  obtain ⟨r, hr, rfl⟩ := h
  have hmem : r.idempotencyKey ∈ (mark runs id m now).map AnalysisRun.idempotencyKey := by
    rw [mark_keys]
    exact List.mem_map_of_mem hr
  exact List.mem_map.mp hmem

theorem exists_mark {P Q : AnalysisRun → Prop}
    (h : ∃ r ∈ runs, r.analysisRunId = i ∧ P r)
    (hmarked : ∀ r ∈ runs, r.analysisRunId = id → P r → Q (m.apply now r))
    (hother : ∀ r ∈ runs, r.analysisRunId ≠ id → P r → Q r) :
    ∃ r ∈ mark runs id m now, r.analysisRunId = i ∧ Q r := by
  obtain ⟨r, hr, hi, hP⟩ := h
  have hmem : (if r.analysisRunId = id then m.apply now r else r) ∈ mark runs id m now :=
    List.mem_map_of_mem hr
  by_cases hid : r.analysisRunId = id
  · rw [if_pos hid] at hmem
    exact ⟨m.apply now r, hmem, hi, hmarked r hr hid hP⟩
  · rw [if_neg hid] at hmem
    exact ⟨r, hmem, hi, hother r hr hid hP⟩

theorem isSome_apply {r : AnalysisRun} (h : r.flinkJobId.isSome = true) :
    (m.apply now r).flinkJobId.isSome = true := by
  unfold Mark.apply
  dsimp only
  cases m.job with
  | none => exact h
  | some job => rfl

theorem settled_apply {r : AnalysisRun} (h : m.job.isSome = true ∨ m.state.terminal = true) :
    Settled (m.apply now r) = true := by
  unfold Settled Mark.apply
  dsimp only
  rcases h with hjob | hend
  · obtain ⟨job, hjob⟩ := Option.isSome_iff_exists.mp hjob
    rw [hjob]
    rfl
  · rw [hend, Bool.or_true]

end Mark

/-! ## The invariant -/

/-- What holds of a request: its run is as it was inserted while it is under way, and settled once it
is answered. -/
structure Request.Sound (runs : List AnalysisRun) (r : Request) : Prop where
  untouched : ∀ id, r.run = some id → r.isAnswered = false → ∃ run ∈ runs,
    run.analysisRunId = id ∧ run.idempotencyKey = r.request.idempotencyKey ∧
      run.state = .created ∧ run.flinkJobId = none
  settled : ∀ id, r.run = some id → r.isAnswered = true → ∃ run ∈ runs, run.analysisRunId = id ∧
    Settled run = true
  marks : ∀ m answer, r.progress = .marking m answer → m.job.isSome = true ∨ m.state.terminal = true

structure Kept (s : AnalysisRuns) : Prop where
  ids : (s.runs.map AnalysisRun.analysisRunId).Nodup
  sound : ∀ (k : ℕ) (r : Request), s.requests[k]? = some r → r.Sound s.runs
  apart : ∀ (j k : ℕ) (q r : Request) (id : Guid), s.requests[j]? = some q → s.requests[k]? = some r →
    q.run = some id → r.run = some id → j = k
  polled : ∀ p ∈ s.polls, p.inFlight = true → ∃ run ∈ s.runs,
    run.analysisRunId = p.analysisRunId ∧ run.flinkJobId.isSome = true
  stored : ∀ b ∈ s.submissions, ∃ run ∈ s.runs, run.idempotencyKey = b.idempotencyKey
  once : ∀ key, isKey key = true → jobs s key + s.requests.countP (Request.unsubmitted key) ≤ 1

theorem Kept.row_unique {s : AnalysisRuns} (h : Kept s) {q r : AnalysisRun} (hq : q ∈ s.runs)
    (hr : r ∈ s.runs) (hid : q.analysisRunId = r.analysisRunId) : q = r :=
  List.inj_on_of_nodup_map h.ids hq hr hid

theorem Request.Sound.run_stored {runs : List AnalysisRun} {r : Request} (h : r.Sound runs) {id : Guid}
    (hrun : r.run = some id) : ∃ run ∈ runs, run.analysisRunId = id := by
  cases hanswered : r.isAnswered with
  | false =>
    obtain ⟨run, hmem, hid, -⟩ := h.untouched id hrun hanswered
    exact ⟨run, hmem, hid⟩
  | true =>
    obtain ⟨run, hmem, hid, -⟩ := h.settled id hrun hanswered
    exact ⟨run, hmem, hid⟩

/-! ## The steps -/

theorem Request.Sound.mark {runs : List AnalysisRun} {r : Request} (h : r.Sound runs) {id : Guid}
    (m : Mark) (now : ℤ) (hrun : r.run ≠ some id) : r.Sound (mark runs id m now) := by
  refine ⟨fun i hi hopen => ?_, fun i hi hdone => ?_, h.marks⟩
  · obtain ⟨run, hmem, hid, hrest⟩ := h.untouched i hi hopen
    refine exists_mark ⟨run, hmem, hid, rfl⟩ ?_ ?_
    · rintro _ - hmarked rfl
      exact absurd (hi.trans (congrArg some (hid.symm.trans hmarked))) hrun
    · rintro _ - - rfl
      exact hrest
  · obtain ⟨run, hmem, hid, hsettled⟩ := h.settled i hi hdone
    refine exists_mark ⟨run, hmem, hid, rfl⟩ ?_ ?_
    · rintro _ - hmarked rfl
      exact absurd (hi.trans (congrArg some (hid.symm.trans hmarked))) hrun
    · rintro _ - - rfl
      exact hsettled

theorem Request.Sound.append {runs : List AnalysisRun} {r : Request} (h : r.Sound runs)
    (new : AnalysisRun) : r.Sound (runs ++ [new]) := by
  refine ⟨fun i hi hopen => ?_, fun i hi hdone => ?_, h.marks⟩
  · obtain ⟨run, hmem, hrest⟩ := h.untouched i hi hopen
    exact ⟨run, List.mem_append_left _ hmem, hrest⟩
  · obtain ⟨run, hmem, hrest⟩ := h.settled i hi hdone
    exact ⟨run, List.mem_append_left _ hmem, hrest⟩

theorem Kept.apart_set {s : AnalysisRuns} (h : Kept s) {k : ℕ} {r r' : Request}
    (hk : s.requests[k]? = some r) (hrun : r'.run = r.run) (i j : ℕ) (p q : Request) (id : Guid)
    (hi : (s.requests.set k r')[i]? = some p) (hj : (s.requests.set k r')[j]? = some q)
    (hp : p.run = some id) (hq : q.run = some id) : i = j := by
  rcases getElem?_set_cases hi with ⟨hik, hpr⟩ | ⟨hik, hi'⟩
  · rcases getElem?_set_cases hj with ⟨hjk, hqr⟩ | ⟨hjk, hj'⟩
    · exact hik.trans hjk.symm
    · rw [hpr, hrun] at hp
      exact hik.trans (h.apart k j r q id hk hj' hp hq)
  · rcases getElem?_set_cases hj with ⟨hjk, hqr⟩ | ⟨hjk, hj'⟩
    · rw [hqr, hrun] at hq
      exact (h.apart i k p r id hi' hk hp hq).trans hjk.symm
    · exact h.apart i j p q id hi' hj' hp hq

theorem Kept.replace {s : AnalysisRuns} (h : Kept s) {k : ℕ} {r r' : Request}
    (hk : s.requests[k]? = some r) (hrun : r'.run = r.run) (hsound : r'.Sound s.runs)
    (hcount : ∀ key, r'.unsubmitted key = true → r.unsubmitted key = true) :
    Kept { s with requests := s.requests.set k r' } := by
  refine ⟨h.ids, ?_, h.apart_set hk hrun, h.polled, h.stored, ?_⟩
  · intro j q hj
    rcases getElem?_set_cases hj with ⟨-, rfl⟩ | ⟨-, hj⟩
    · exact hsound
    · exact h.sound j q hj
  · intro key hkey
    exact (Nat.add_le_add_left (countP_set_le hk (hcount key)) _).trans (h.once key hkey)

theorem Kept.start {s : AnalysisRuns} (h : Kept s) (request : StartRequest) :
    Kept { s with requests := s.requests ++ [⟨request, none, begin request⟩] } := by
  have hnew : ∀ (k : ℕ) (r : Request),
      (s.requests ++ [⟨request, none, begin request⟩])[k]? = some r → s.requests[k]? = some r ∨ r = ⟨request, none, begin request⟩ := by
    intro k r hr
    rw [List.getElem?_append] at hr
    split at hr
    · exact .inl hr
    · exact .inr (List.mem_singleton.mp (List.mem_of_getElem? hr))
  refine ⟨h.ids, ?_, ?_, h.polled, h.stored, ?_⟩
  · intro k r hr
    rcases hnew k r hr with hr | rfl
    · exact h.sound k r hr
    · refine ⟨nofun, nofun, fun m answer hmarking => ?_⟩
      unfold begin at hmarking
      dsimp only at hmarking
      split at hmarking
      · cases hmarking
      · split at hmarking
        · cases hmarking
        · cases hmarking
  · intro j k q r id hj hk hq hr
    rcases hnew j q hj with hj | rfl
    · rcases hnew k r hk with hk | rfl
      · exact h.apart j k q r id hj hk hq hr
      · cases hr
    · cases hq
  · intro key hkey
    have hcount : Request.unsubmitted key ⟨request, none, begin request⟩ = false := by
      unfold Request.unsubmitted
      dsimp only
      split
      · rfl
      · rfl
      · rfl
    rw [List.countP_append, List.countP_singleton, hcount]
    exact h.once key hkey

theorem Kept.key_stored {s : AnalysisRuns} (h : Kept s) {key : Option String}
    (hpos : 0 < jobs s key + s.requests.countP (Request.unsubmitted key)) :
    ∃ run ∈ s.runs, run.idempotencyKey = key := by
  rcases Nat.add_pos_iff_pos_or_pos.mp hpos with hjobs | hrequests
  · obtain ⟨b, hb, hstarted⟩ := List.countP_pos_iff.mp hjobs
    obtain ⟨run, hrun, hkey⟩ := h.stored b hb
    unfold Submission.startedFor at hstarted
    exact ⟨run, hrun, hkey.trans (of_decide_eq_true (Bool.and_eq_true_iff.mp hstarted).1)⟩
  · obtain ⟨r, hr, hunsubmitted⟩ := List.countP_pos_iff.mp hrequests
    obtain ⟨k, hk⟩ := List.mem_iff_getElem?.mp hr
    obtain ⟨hopen, hrun, hkey⟩ : r.isAnswered = false ∧ r.run.isSome = true ∧
        r.request.idempotencyKey = key := by
      unfold Request.unsubmitted at hunsubmitted
      unfold Request.isAnswered
      split at hunsubmitted
      · rename_i huploading
        rw [huploading]
        obtain ⟨hrun, hkey⟩ := Bool.and_eq_true_iff.mp hunsubmitted
        exact ⟨rfl, hrun, of_decide_eq_true hkey⟩
      · rename_i hsubmitting
        rw [hsubmitting]
        obtain ⟨hrun, hkey⟩ := Bool.and_eq_true_iff.mp hunsubmitted
        exact ⟨rfl, hrun, of_decide_eq_true hkey⟩
      · cases hunsubmitted
    obtain ⟨id, hid⟩ := Option.isSome_iff_exists.mp hrun
    obtain ⟨run, hmem, -, hrunKey, -⟩ := (h.sound k r hk).untouched id hid hopen
    exact ⟨run, hmem, hrunKey.trans hkey⟩

theorem Kept.insert {s : AnalysisRuns} (h : Kept s) {k : ℕ} {request : StartRequest}
    (hk : s.requests[k]? = some ⟨request, none, .inserting⟩) {id : Guid}
    (hid : id ∉ s.runs.map AnalysisRun.analysisRunId) (createdAt : ℤ)
    (hfree : KeyIsFree s.runs ⟨request, none, .inserting⟩ = true) :
    Kept { s with
      runs := s.runs ++ [request.inserted id createdAt]
      requests := s.requests.set k ⟨request, some id, .uploading⟩ } := by
  have hnew : request.inserted id createdAt ∈ s.runs ++ [request.inserted id createdAt] :=
    List.mem_append_right _ List.mem_cons_self
  have hfresh : ∀ (j : ℕ) (q : Request), s.requests[j]? = some q → q.run ≠ some id := by
    intro j q hj hrun
    obtain ⟨stored, hmem, hstored⟩ := (h.sound j q hj).run_stored hrun
    exact hid (hstored ▸ List.mem_map_of_mem hmem)
  refine ⟨?_, ?_, ?_, ?_, ?_, ?_⟩
  · rw [List.map_append, List.map_singleton]
    refine h.ids.append (List.nodup_singleton _) ?_
    intro i hi hsingle
    rw [List.mem_singleton] at hsingle
    rw [hsingle] at hi
    exact hid hi
  · intro j q hj
    rcases getElem?_set_cases hj with ⟨-, rfl⟩ | ⟨-, hj⟩
    · refine ⟨fun i hi _ => ?_, nofun, nofun⟩
      exact ⟨_, hnew, Option.some.inj hi, rfl, rfl, rfl⟩
    · exact (h.sound j q hj).append _
  · intro i j p q i' hi hj hp hq
    rcases getElem?_set_cases hi with ⟨hik, rfl⟩ | ⟨hik, hi'⟩
    · rcases getElem?_set_cases hj with ⟨hjk, -⟩ | ⟨hjk, hj'⟩
      · exact hik.trans hjk.symm
      · exact absurd (hq.trans hp.symm) (hfresh j q hj')
    · rcases getElem?_set_cases hj with ⟨hjk, rfl⟩ | ⟨hjk, hj'⟩
      · exact absurd (hp.trans hq.symm) (hfresh i p hi')
      · exact h.apart i j p q i' hi' hj' hp hq
  · intro p hp hflight
    obtain ⟨stored, hmem, hstored⟩ := h.polled p hp hflight
    exact ⟨stored, List.mem_append_left _ hmem, hstored⟩
  · intro b hb
    obtain ⟨stored, hmem, hstored⟩ := h.stored b hb
    exact ⟨stored, List.mem_append_left _ hmem, hstored⟩
  · intro key hkey
    by_cases hsame : request.idempotencyKey = key
    · -- the key names no run, so that no submission and no other request is of it
      have hzero : ¬ 0 < jobs s key + s.requests.countP (Request.unsubmitted key) := by
        intro hpos
        obtain ⟨stored, hmem, hstored⟩ := h.key_stored hpos
        unfold KeyIsFree at hfree
        rcases of_decide_eq_true hfree with hblank | hnone
        · exact Bool.false_ne_true (hblank.symm.trans (hsame ▸ hkey))
        · exact hnone stored hmem (hstored.trans hsame.symm)
      have hcount := countP_set_of_not (p := Request.unsubmitted key)
        (b := ⟨request, some id, .uploading⟩) hk
      unfold jobs at hzero ⊢
      dsimp only
      omega
    · refine le_trans (Nat.add_le_add_left (countP_set_le hk ?_) _) (h.once key hkey)
      intro hunsubmitted
      unfold Request.unsubmitted at hunsubmitted
      exact absurd (of_decide_eq_true (Bool.and_eq_true_iff.mp hunsubmitted).2) hsame

theorem submit_progress (request : StartRequest) (id : Guid) {outcome : SubmitOutcome}
    {s : AnalysisRuns} {k : ℕ} (h : InOrder s (.submit k outcome) = true) :
    ∃ m answer, submit request id outcome = .marking m answer ∧
      (m.job.isSome = true ∨ m.state.terminal = true) := by
  unfold InOrder at h
  unfold submit
  cases outcome with
  | accepted jobId =>
    dsimp only at h ⊢
    rw [if_pos h]
    refine ⟨_, _, rfl, .inl ?_⟩
    cases jobId with
    | none => cases h
    | some job => rfl
  | unreadable message => cases h
  | refused status body => exact ⟨_, _, rfl, .inr rfl⟩
  | incomplete started message => exact ⟨_, _, rfl, .inr rfl⟩

theorem Kept.submit {s : AnalysisRuns} (h : Kept s) {k : ℕ} {request : StartRequest} {id : Guid}
    (hk : s.requests[k]? = some ⟨request, some id, .submitting⟩) {outcome : SubmitOutcome}
    (horder : InOrder s (.submit k outcome) = true) :
    Kept { s with
      submissions := s.submissions ++ [⟨id, request.idempotencyKey, outcome.jobStarted⟩]
      requests := s.requests.set k
        ⟨request, some id, CplmRecomputeService.submit request id outcome⟩ } := by
  obtain ⟨m, answer, hsubmit, hmarks⟩ := submit_progress request id horder
  rw [hsubmit]
  have hopen := (h.sound k _ hk).untouched id rfl rfl
  have hreplaced :
      Kept { s with requests := s.requests.set k ⟨request, some id, .marking m answer⟩ } := by
    refine h.replace hk rfl ⟨?_, nofun, ?_⟩ nofun
    · intro i hi _
      exact (h.sound k _ hk).untouched i hi rfl
    · intro m' answer' hprogress
      cases hprogress
      exact hmarks
  refine ⟨h.ids, hreplaced.sound, hreplaced.apart, h.polled, ?_, ?_⟩
  · intro b hb
    rcases List.mem_append.mp hb with hb | hb
    · exact h.stored b hb
    · obtain rfl := List.mem_singleton.mp hb
      obtain ⟨run, hmem, -, hkey, -⟩ := hopen
      exact ⟨run, hmem, hkey⟩
  · intro key hkey
    have honce := h.once key hkey
    unfold jobs at honce ⊢
    dsimp only
    rw [List.countP_append, List.countP_singleton]
    by_cases hsame : request.idempotencyKey = key
    · have hcount := countP_set_lt (p := Request.unsubmitted key)
        (b := ⟨request, some id, .marking m answer⟩) hk (decide_eq_true hsame) Bool.false_ne_true
      split <;> omega
    · have hcount := countP_set_le (p := Request.unsubmitted key)
        (b := ⟨request, some id, .marking m answer⟩) hk nofun
      rw [if_neg]
      · omega
      · intro hstarted
        unfold Submission.startedFor at hstarted
        exact hsame (of_decide_eq_true (Bool.and_eq_true_iff.mp hstarted).1)

theorem Kept.mark {s : AnalysisRuns} (h : Kept s) {k : ℕ} {request : StartRequest} {id : Guid}
    {m : Mark} {answer : Answer}
    (hk : s.requests[k]? = some ⟨request, some id, .marking m answer⟩) (now : ℤ) :
    Kept { s with
      runs := AnalysisRunStore.mark s.runs id m now
      requests := s.requests.set k ⟨request, some id, .answered answer⟩ } := by
  obtain ⟨run, hrun, hrunId, -, -, hjob⟩ := (h.sound k _ hk).untouched id rfl rfl
  have hmarks := (h.sound k _ hk).marks m answer rfl
  refine ⟨?_, ?_, h.apart_set hk rfl, ?_, fun b hb => exists_key_mark (h.stored b hb), ?_⟩
  · dsimp only
    rw [mark_ids]
    exact h.ids
  · intro j q hj
    rcases getElem?_set_cases hj with ⟨-, rfl⟩ | ⟨hjk, hj⟩
    · refine ⟨nofun, fun i hi _ => ?_, nofun⟩
      refine exists_mark (P := fun r => r.analysisRunId = id)
        ⟨run, hrun, hrunId.trans (Option.some.inj hi), hrunId⟩ ?_ ?_
      · exact fun r _ _ _ => settled_apply hmarks
      · exact fun r _ hne heq => absurd heq hne
    · exact (h.sound j q hj).mark m now fun hq => hjk (h.apart j k q _ id hj hk hq rfl)
  · intro p hp hflight
    obtain ⟨r, hr, hid, hsome⟩ := h.polled p hp hflight
    refine exists_mark (P := fun r => r.flinkJobId.isSome = true) ⟨r, hr, hid, hsome⟩ ?_ ?_
    · exact fun _ _ _ hq => isSome_apply hq
    · exact fun _ _ _ hq => hq
  · intro key hkey
    refine (Nat.add_le_add_left (countP_set_le hk ?_) _).trans (h.once key hkey)
    exact fun hanswered => nomatch hanswered

theorem pollOf_inFlight {runs : List AnalysisRun} {id : Guid}
    (h : (pollOf runs id).inFlight = true) : ∃ run ∈ runs,
      run.analysisRunId = (pollOf runs id).analysisRunId ∧ run.flinkJobId.isSome = true := by
  unfold pollOf at h ⊢
  cases hfind : runs.find? fun r => r.analysisRunId = id with
  | none =>
    rw [hfind] at h
    cases h
  | some r =>
    rw [hfind] at h
    dsimp only at h ⊢
    split at h
    · rename_i hjob
      rw [if_pos hjob]
      exact ⟨r, List.mem_of_find?_eq_some hfind, by simpa using List.find?_some hfind, hjob.1⟩
    · cases h

theorem Kept.poll {s : AnalysisRuns} (h : Kept s) (id : Guid) :
    Kept { s with polls := s.polls ++ [pollOf s.runs id] } := by
  refine ⟨h.ids, h.sound, h.apart, ?_, h.stored, h.once⟩
  intro p hp hflight
  rcases List.mem_append.mp hp with hp | hp
  · exact h.polled p hp hflight
  · obtain rfl := List.mem_singleton.mp hp
    exact pollOf_inFlight hflight

theorem Kept.replacePoll {s : AnalysisRuns} (h : Kept s) {k : ℕ} {p p' : Poll}
    (hk : s.polls[k]? = some p) (hflight : p.inFlight = true) (hid : p'.analysisRunId = p.analysisRunId) :
    Kept { s with polls := s.polls.set k p' } := by
  refine ⟨h.ids, h.sound, h.apart, ?_, h.stored, h.once⟩
  intro q hq hq'
  rcases List.mem_or_eq_of_mem_set hq with hq | rfl
  · exact h.polled q hq hq'
  · rw [hid]
    exact h.polled p (List.mem_of_getElem? hk) hflight

theorem Kept.markPolled {s : AnalysisRuns} (h : Kept s) {k : ℕ} {p : Poll} (p' : Poll)
    (hk : s.polls[k]? = some p) (hflight : p.inFlight = true) (hid : p'.analysisRunId = p.analysisRunId)
    (state : RunState) (now : ℤ) :
    Kept { s with
      runs := AnalysisRunStore.mark s.runs p.analysisRunId ⟨state, none, none⟩ now
      polls := s.polls.set k p' } := by
  obtain ⟨run, hrun, hrunId, hjob⟩ := h.polled p (List.mem_of_getElem? hk) hflight
  have hnext := h.replacePoll hk hflight hid
  refine ⟨?_, ?_, h.apart, ?_, fun b hb => exists_key_mark (h.stored b hb), h.once⟩
  · dsimp only
    rw [mark_ids]
    exact h.ids
  · intro j q hj
    refine ⟨fun i hi hopen => ?_, fun i hi hdone => ?_, (h.sound j q hj).marks⟩
    · obtain ⟨r, hr, hrid, hrest⟩ := (h.sound j q hj).untouched i hi hopen
      refine exists_mark (P := fun r => r.idempotencyKey = q.request.idempotencyKey ∧
        r.state = .created ∧ r.flinkJobId = none) ⟨r, hr, hrid, hrest⟩ ?_ ?_
      · intro r' hr' hmarked hopen'
        -- the run of a request that is under way has no job to poll
        have hsame := h.row_unique hr' hrun (hmarked.trans hrunId.symm)
        rw [← hsame, hopen'.2.2] at hjob
        cases hjob
      · exact fun _ _ _ hopen' => hopen'
    · obtain ⟨r, hr, hrid, hsettled⟩ := (h.sound j q hj).settled i hi hdone
      refine exists_mark (P := fun r => Settled r = true) ⟨r, hr, hrid, hsettled⟩ ?_ ?_
      · intro r' hr' hmarked _
        have hsame := h.row_unique hr' hrun (hmarked.trans hrunId.symm)
        unfold Settled
        rw [isSome_apply (hsame ▸ hjob), Bool.true_or]
      · exact fun _ _ _ hsettled' => hsettled'
  · intro q hq hq'
    obtain ⟨r, hr, hrid, hsome⟩ := hnext.polled q hq hq'
    refine exists_mark (P := fun r => r.flinkJobId.isSome = true) ⟨r, hr, hrid, hsome⟩ ?_ ?_
    · exact fun _ _ _ hsome' => isSome_apply hsome'
    · exact fun _ _ _ hsome' => hsome'

theorem find_sound (runs : List AnalysisRun) (request : StartRequest) :
    Request.Sound runs ⟨request, none, find runs request⟩ := by
  refine ⟨nofun, nofun, fun m answer hmarking => ?_⟩
  unfold find at hmarking
  dsimp only at hmarking
  split at hmarking
  · cases hmarking
  · cases hmarking

theorem Request.Sound.upload {runs : List AnalysisRun} {request : StartRequest} {id : Guid}
    (h : Request.Sound runs ⟨request, some id, .uploading⟩) {s : AnalysisRuns} {k : ℕ}
    {outcome : UploadOutcome} (horder : InOrder s (.upload k outcome) = true) :
    Request.Sound runs ⟨request, some id, CplmRecomputeService.upload outcome⟩ := by
  cases outcome with
  | jar => exact ⟨fun i hi _ => h.untouched i hi rfl, nofun, nofun⟩
  | incomplete message =>
    refine ⟨fun i hi _ => h.untouched i hi rfl, nofun, fun m answer hmarking => ?_⟩
    cases hmarking
    exact .inr rfl
  | exception message => cases horder

theorem Kept.step {s : AnalysisRuns} (h : Kept s) (e : Event) (horder : InOrder s e = true) :
    Kept (CplmRecomputeService.step s e).1 := by
  cases e with
  | start request => exact h.start request
  | find k =>
    unfold CplmRecomputeService.step
    dsimp only
    split
    · rename_i request hk
      refine h.replace hk rfl (find_sound s.runs request) fun key hunsubmitted => ?_
      unfold Request.unsubmitted at hunsubmitted
      dsimp only at hunsubmitted
      split at hunsubmitted <;> cases hunsubmitted
    · exact h
  | insert k id createdAt =>
    unfold CplmRecomputeService.step
    dsimp only
    split
    · rename_i request hk
      split
      · exact h.replace hk rfl ⟨nofun, nofun, nofun⟩ nofun
      · rename_i hid
        unfold InOrder at horder
        dsimp only at horder
        rw [hk, Option.all_some] at horder
        exact h.insert hk hid createdAt horder
    · exact h
  | upload k outcome =>
    unfold CplmRecomputeService.step
    dsimp only
    split
    · rename_i request id hk
      refine h.replace hk rfl ((h.sound k _ hk).upload horder) fun key hunsubmitted => ?_
      cases outcome with
      | jar => exact hunsubmitted
      | incomplete message => cases hunsubmitted
      | exception message => cases hunsubmitted
    · exact h
  | submit k outcome =>
    unfold CplmRecomputeService.step
    dsimp only
    split
    · rename_i request id hk
      exact h.submit hk horder
    · exact h
  | mark k now =>
    unfold CplmRecomputeService.step
    dsimp only
    split
    · rename_i request id m answer hk
      exact h.mark hk now
    · exact h
  | poll id => exact h.poll id
  | ask k response gateResults =>
    unfold CplmRecomputeService.step
    dsimp only
    split
    · rename_i id read jobState hk
      exact h.replacePoll hk rfl rfl
    · exact h
  | markPolled k now =>
    unfold CplmRecomputeService.step
    dsimp only
    split
    · rename_i id state read jobState hk
      exact h.markPolled ⟨id, .answered (some state) jobState, read, jobState⟩ hk rfl rfl state now
    · exact h

/-! ## The end of a run -/

theorem ends_mark {runs : List AnalysisRun} {id : Guid} {m : Mark} {now : ℤ}
    (h : ∀ r ∈ runs, r.analysisRunId = id → r.state.terminal = true → r.state = m.state)
    {r : AnalysisRun} (hr : r ∈ runs) (hend : r.state.terminal = true) :
    ∃ r' ∈ mark runs id m now, r'.analysisRunId = r.analysisRunId ∧ r'.state = r.state := by
  refine exists_mark (P := fun q => q = r) ⟨r, hr, rfl, rfl⟩ ?_ ?_
  · rintro _ - hid rfl
    exact (h _ hr hid hend).symm
  · rintro _ - - rfl
    rfl

theorem Kept.end_step {s : AnalysisRuns} (h : Kept s) (e : Event) (horder : InOrder s e = true)
    {r : AnalysisRun} (hr : r ∈ s.runs) (hend : r.state.terminal = true) :
    ∃ r' ∈ (CplmRecomputeService.step s e).1.runs,
      r'.analysisRunId = r.analysisRunId ∧ r'.state = r.state := by
  have hsame : ∃ r' ∈ s.runs, r'.analysisRunId = r.analysisRunId ∧ r'.state = r.state :=
    ⟨r, hr, rfl, rfl⟩
  cases e with
  | start request => exact hsame
  | find k =>
    unfold CplmRecomputeService.step
    dsimp only
    split
    · exact hsame
    · exact hsame
  | insert k id createdAt =>
    unfold CplmRecomputeService.step
    dsimp only
    split
    · split
      · exact hsame
      · exact ⟨r, List.mem_append_left _ hr, rfl, rfl⟩
    · exact hsame
  | upload k outcome =>
    unfold CplmRecomputeService.step
    dsimp only
    split
    · exact hsame
    · exact hsame
  | submit k outcome =>
    unfold CplmRecomputeService.step
    dsimp only
    split
    · exact hsame
    · exact hsame
  | mark k now =>
    unfold CplmRecomputeService.step
    dsimp only
    split
    · rename_i request id m answer hk
      -- the run of a request that is under way is created
      obtain ⟨run, hrun, hrunId, -, hcreated, -⟩ := (h.sound k _ hk).untouched id rfl rfl
      refine ends_mark (fun q hq hid hqend => ?_) hr hend
      rw [h.row_unique hq hrun (hid.trans hrunId.symm), hcreated] at hqend
      cases hqend
    · exact hsame
  | poll id => exact hsame
  | ask k response gateResults =>
    unfold CplmRecomputeService.step
    dsimp only
    split
    · exact hsame
    · exact hsame
  | markPolled k now =>
    unfold CplmRecomputeService.step
    dsimp only
    split
    · rename_i id state read jobState hk
      unfold InOrder at horder
      dsimp only at horder
      rw [hk, Option.all_some] at horder
      unfold KeepsEnd at horder
      exact ends_mark (of_decide_eq_true horder) hr hend
    · exact hsame

theorem Kept.end_after {s : AnalysisRuns} (h : Kept s) (run : List Event)
    (horder : Machine.Always CplmRecomputeService.step (fun t e => InOrder t e = true) s run)
    {r : AnalysisRun} (hr : r ∈ s.runs) (hend : r.state.terminal = true) :
    ∃ r' ∈ (after s run).runs, r'.analysisRunId = r.analysisRunId ∧ r'.state = r.state := by
  induction run generalizing s r with
  | nil => exact ⟨r, hr, rfl, rfl⟩
  | cons e rest ih =>
    obtain ⟨r', hr', hid, hstate⟩ := h.end_step e horder.1 hr hend
    obtain ⟨q, hq, hqid, hqstate⟩ := ih (h.step e horder.1) horder.2 hr' (hstate ▸ hend)
    exact ⟨q, hq, hqid.trans hid, hqstate.trans hstate⟩

def holding (runs : List AnalysisRun) : AnalysisRuns := { runs := runs }

theorem Kept.holding {runs : List AnalysisRun} (hids : (runs.map AnalysisRun.analysisRunId).Nodup) :
    Kept (holding runs) where
  ids := hids
  sound _ _ hk := absurd (List.mem_of_getElem? hk) List.not_mem_nil
  apart _ _ _ _ _ hj := absurd (List.mem_of_getElem? hj) List.not_mem_nil
  polled _ hp := absurd hp List.not_mem_nil
  stored _ hb := absurd hb List.not_mem_nil
  once _ _ := Nat.zero_le 1

def OneJob (s : AnalysisRuns) : Prop := ∀ key, isKey key = true → jobs s key ≤ 1

/-- A run that is at its end before some steps is at the same end after them. -/
def EndsStand (s t : AnalysisRuns) : Prop := ∀ r ∈ s.runs, r.state.terminal = true →
  ∃ r' ∈ t.runs, r'.analysisRunId = r.analysisRunId ∧ r'.state = r.state

/-- The run that an answered request created has a job, or is at its end. -/
def AnsweredSettled (s : AnalysisRuns) : Prop := ∀ r ∈ s.requests, r.isAnswered = true →
  ∀ id, r.run = some id → ∃ run ∈ s.runs, run.analysisRunId = id ∧ Settled run = true

/-- After any steps in order a key has at most one job, every run that was at its end is still at it,
and every run of an answered request has a job or is at its end. -/
theorem runs_settle (runs : List AnalysisRun)
    (hids : (runs.map AnalysisRun.analysisRunId).Nodup) (run : List Event)
    (horder : Machine.Always step (fun t e => InOrder t e = true) (holding runs) run) :
    OneJob (after (holding runs) run) ∧
      (∀ pre, pre <+: run → EndsStand (after (holding runs) pre) (after (holding runs) run)) ∧
      AnsweredSettled (after (holding runs) run) := by
  have hstart : Kept (holding runs) := Kept.holding hids
  have hkept : ∀ {t : AnalysisRuns} {is : List Event}, Kept t →
      Machine.Always step (fun t e => InOrder t e = true) t is → Kept (after t is) :=
    fun ht his => Machine.stateAfter_of_always _ Kept (fun _ e ht he => ht.step e he) ht his
  refine ⟨fun key hkey => ?_, ?_, ?_⟩
  · exact (Nat.le_add_right _ _).trans ((hkept hstart horder).once key hkey)
  · rintro pre ⟨post, rfl⟩ r hr hend
    rw [Machine.always_append] at horder
    have hpost := (hkept hstart horder.1).end_after post horder.2 hr hend
    unfold after at hpost ⊢
    rw [Machine.stateAfter_append]
    exact hpost
  · intro r hr hanswered id hid
    obtain ⟨k, hk⟩ := List.mem_iff_getElem?.mp hr
    exact ((hkept hstart horder).sound k r hk).settled id hid hanswered

def replayOf (key : String) : StartRequest :=
  { loopId := "FIC101", purpose := "REPLAY", createdBy := none, idempotencyKey := some key,
    support := ⟨"kafka", 0, 0, none⟩, reconstruct := none }

def started (k : ℕ) (id : Guid) (job : String) : List Event :=
  [.start (replayOf "key-1"), .find k, .insert k id 1, .upload k .jar,
    .submit k (.accepted (some job)), .mark k 2]

def orderly : List Event :=
  started 0 7 "job-1" ++ [.start (replayOf "key-1"), .find 1, .poll 7,
    .ask 0 (.ok (some "FINISHED")) 3, .markPolled 0 9]

theorem runs_settle_orderly : OneJob (after (holding []) orderly) ∧
    (∀ pre, pre <+: orderly → EndsStand (after (holding []) pre) (after (holding []) orderly)) ∧
    AnsweredSettled (after (holding []) orderly) :=
  runs_settle [] .nil orderly (by decide)

def sameKey : List Event :=
  [.start (replayOf "key-1"), .start (replayOf "key-1"), .find 0, .find 1, .insert 0 7 1, .insert 1 8 1,
    .upload 0 .jar, .upload 1 .jar, .submit 0 (.accepted (some "job-1")),
    .submit 1 (.accepted (some "job-2"))]

def failedPolled : List Event :=
  started 0 7 "job-1" ++ [.poll 7, .poll 7, .ask 0 (.ok (some "FAILED")) 0, .ask 1 .notFound 3,
    .markPolled 0 9]

def noJob : List Event :=
  [.start (replayOf "key-1"), .find 0, .insert 0 7 1, .upload 0 .jar, .submit 0 (.accepted none)]

/-- Two jobs for a key, an end that gives way to another, and an answered run that stays created. -/
theorem life_cycle_broken : (¬ ∀ run, OneJob (after (holding []) run)) ∧
    (¬ ∀ pre post, EndsStand (after (holding []) pre) (after (holding []) (pre ++ post))) ∧
    ¬ ∀ run, AnsweredSettled (after (holding []) run) := by
  refine ⟨fun h => ?_, fun h => ?_, fun h => ?_⟩
  · have hjobs := h sameKey (some "key-1") (by decide)
    revert hjobs
    decide
  · have hends := h failedPolled [.markPolled 1 10]
    unfold EndsStand at hends
    revert hends
    decide
  · have hsettled := h noJob
    have hlast : (after (holding []) noJob).requests.map Request.run = [some 7] ∧
        (after (holding []) noJob).requests.all Request.isAnswered = true ∧
        ∀ run ∈ (after (holding []) noJob).runs, Settled run = false := by decide
    obtain ⟨hrun, hanswered, hopen⟩ := hlast
    have hmem : some 7 ∈ (after (holding []) noJob).requests.map Request.run := by
      rw [hrun]
      exact List.mem_cons_self
    obtain ⟨r, hr, hid⟩ := List.mem_map.mp hmem
    obtain ⟨run, hstored, -, hrunSettled⟩ :=
      hsettled r hr (List.all_eq_true.mp hanswered r hr) 7 hid
    exact Bool.false_ne_true ((hopen run hstored).symm.trans hrunSettled)

end CplmRecomputeService

end OpenBridge.Analytics
