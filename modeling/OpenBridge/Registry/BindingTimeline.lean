import OpenBridge.Foundation.Slots
import OpenBridge.Registry.InstrumentBindingService

/-!
# Registry: one timeline for each signal, and a topic that agrees with it

The topic agrees when no call publishes a list that a later commit has changed: a call that has
committed and not published accounts for its loop, and a current list that is published settles it.
-/

namespace OpenBridge.Registry

open OpenBridge.Foundation OpenBridge.Foundation.Slots
open OpenBridge.EventFrames (timestamptz)

namespace InstrumentBindingService

/-- What a table holds under its constraints: rows with their own keys, of registered loops and of the
five roles, whose intervals do not overlap. -/
structure WellKept (site : String → Option String) (rows : List InstrumentBinding) : Prop where
  timelines : Timelines rows
  ids : (rows.map InstrumentBinding.bindingId).Nodup
  registered : ∀ b ∈ rows, (site b.loopId).isSome = true
  ofRole : ∀ b ∈ rows, b.signalRole ∈ roles

/-- The bindings that `AsOf` chooses from. -/
def answers (rows : List InstrumentBinding) (loopId role : String) (t : ℤ) :
    List InstrumentBinding :=
  rows.filter fun b => b.loopId = loopId ∧ equalsIgnoreCase b.signalRole role ∧ b.covers t

def historyOf (rows : List InstrumentBinding) (loopId : String) : List InstrumentBinding :=
  (rows.filter fun b => b.loopId = loopId).insertionSort listedBefore

def lastRecord (topic : List BindingRecord) (loopId : String) : Option (List PublishedBinding) :=
  ((topic.filter fun r => r.key = recordKey loopId).getLast?).map BindingRecord.bindings

def Agrees (s : Bindings) (loopId : String) : Prop :=
  (∃ b ∈ s.rows, b.loopId = loopId) →
    lastRecord s.topic loopId = some ((historyOf s.rows loopId).map publishedOf)

def Call.pending (c : Call) : Bool :=
  match c.progress with
  | .committed => true
  | .listed _ => true
  | _ => false

def Call.settled (c : Call) : Bool :=
  match c.progress with
  | .returned => true
  | .failed _ => true
  | _ => false

def Call.current (rows : List InstrumentBinding) (c : Call) : Bool :=
  match c.progress with
  | .listed history => history = listAsync rows c.loopId
  | _ => true

def Current (s : Bindings) : Event → Bool
  | .publish k => s.calls[k]?.all (Call.current s.rows)
  | _ => true

/-! ## The timelines -/

section Timelines

variable {site : String → Option String} {rows : List InstrumentBinding}

theorem role_eq_of_ignoreCase {a b x : String} (ha : a ∈ roles) (hb : b ∈ roles)
    (hax : equalsIgnoreCase a x = true) (hbx : equalsIgnoreCase b x = true) : a = b := by
  have hroles : ∀ a ∈ roles, ∀ b ∈ roles, equalsIgnoreCase a b = true → a = b := by decide
  refine hroles a ha b hb ?_
  unfold equalsIgnoreCase at hax hbx ⊢
  rw [decide_eq_true_eq] at hax hbx ⊢
  exact hax.trans hbx.symm

theorem not_covers_both {b c : InstrumentBinding} {t : ℤ} (h : b.apart c) (hsame : b.sameSignal c)
    (hb : b.covers t) (hc : c.covers t) : False := by
  rcases h hsame with ⟨stop, hstop, hle⟩ | ⟨stop, hstop, hle⟩
  · have hlt := hb.2 stop hstop
    have hfrom := hc.1
    omega
  · have hlt := hc.2 stop hstop
    have hfrom := hb.1
    omega

theorem WellKept.length_answers_le (h : WellKept site rows) (loopId role : String) (t : ℤ) :
    (answers rows loopId role t).length ≤ 1 := by
  have hapart : (answers rows loopId role t).Pairwise InstrumentBinding.apart :=
    h.timelines.filter _
  have hall : ∀ b ∈ answers rows loopId role t, b ∈ rows ∧ b.loopId = loopId ∧
      equalsIgnoreCase b.signalRole role = true ∧ b.covers t := by
    intro b hb
    obtain ⟨hmem, hdec⟩ := List.mem_filter.mp hb
    exact ⟨hmem, of_decide_eq_true hdec⟩
  cases hl : answers rows loopId role t with
  | nil => exact Nat.zero_le 1
  | cons b rest =>
    cases rest with
    | nil => exact le_rfl
    | cons c rest =>
      rw [hl] at hapart hall
      obtain ⟨hbmem, hbloop, hbrole, hbcovers⟩ := hall b (by simp)
      obtain ⟨hcmem, hcloop, hcrole, hccovers⟩ := hall c (by simp)
      have hsame : b.sameSignal c := ⟨hbloop.trans hcloop.symm,
        role_eq_of_ignoreCase (h.ofRole b hbmem) (h.ofRole c hcmem) hbrole hcrole⟩
      exact absurd (not_covers_both ((List.pairwise_cons.mp hapart).1 c (by simp)) hsame hbcovers
        hccovers) id

end Timelines

/-! ## The writes of a transaction -/

section Transaction

variable {site : String → Option String} {timeText : ℤ → String} {rows rows' : List InstrumentBinding}
  {c : Call} {open_ : Option InstrumentBinding} {bindingId : ℕ} {approvedAt : ℤ}

theorem map_close {β : Type} (f : InstrumentBinding → β)
    (hf : ∀ b stop, f { b with validTo := stop } = f b) (start : ℤ) :
    (close rows open_ start).map f = rows.map f := by
  unfold close
  cases open_ with
  | none => rfl
  | some o =>
    dsimp only
    rw [List.map_map]
    refine List.map_congr_left fun b _ => ?_
    dsimp only [Function.comp]
    split
    · exact hf b _
    · rfl

theorem transact_ok (h : transact site timeText rows c open_ bindingId approvedAt = .ok rows') :
    ∃ siteName, site c.loopId = some siteName ∧ Timelines rows' ∧
      bindingId ∉ rows.map InstrumentBinding.bindingId ∧
      rows' = close rows open_ c.start ++ [inserted c siteName bindingId approvedAt] := by
  unfold transact at h
  dsimp only at h
  split at h
  · cases h
  split at h
  · cases h
  split at h
  · cases h
  rename_i siteName hsite
  split at h
  · cases h
  rename_i hid
  split at h
  · cases h
  rename_i htimelines
  obtain rfl := Except.ok.inj h
  rw [map_close _ fun _ _ => rfl] at hid
  exact ⟨siteName, hsite, not_not.mp htimelines, hid, rfl⟩

theorem exists_of_mem_close {b : InstrumentBinding} {start : ℤ} (h : b ∈ close rows open_ start) :
    ∃ b₀ ∈ rows, b₀.loopId = b.loopId ∧ b₀.signalRole = b.signalRole := by
  unfold close at h
  cases open_ with
  | none => exact ⟨b, h, rfl, rfl⟩
  | some o =>
    obtain ⟨b₀, hmem, rfl⟩ := List.mem_map.mp h
    refine ⟨b₀, hmem, ?_⟩
    split <;> exact ⟨rfl, rfl⟩

theorem filter_close {loopId : String} {start : ℤ}
    (h : ∀ o, open_ = some o → ∀ b ∈ rows, b.bindingId = o.bindingId → b.loopId ≠ loopId) :
    (close rows open_ start).filter (fun b => b.loopId = loopId) =
      rows.filter fun b => b.loopId = loopId := by
  unfold close
  cases open_ with
  | none => rfl
  | some o =>
    dsimp only
    have hrows := h o rfl
    clear h
    induction rows with
    | nil => rfl
    | cons b rest ih =>
      rw [List.map_cons, List.filter_cons, List.filter_cons,
        ih fun d hd => hrows d (List.mem_cons_of_mem b hd)]
      split
      · rename_i hid
        have hne := hrows b List.mem_cons_self hid
        rw [if_neg (by simpa using hne), if_neg (by simpa using hne)]
      · rfl

theorem WellKept.transact (h : WellKept site rows) (hrole : roleOf c.request ∈ roles)
    (hok : InstrumentBindingService.transact site timeText rows c open_ bindingId approvedAt =
      .ok rows') : WellKept site rows' := by
  obtain ⟨siteName, hsite, htimelines, hid, rfl⟩ := transact_ok hok
  refine ⟨htimelines, ?_, ?_, ?_⟩
  · rw [List.map_append, map_close InstrumentBinding.bindingId fun _ _ => rfl]
    refine List.nodup_append.mpr ⟨h.ids, List.pairwise_singleton _ _, fun a ha b hb hab => ?_⟩
    have hnew : b = bindingId := List.mem_singleton.mp hb
    rw [hab, hnew] at ha
    exact hid ha
  · intro b hb
    rcases List.mem_append.mp hb with hb | hb
    · obtain ⟨b₀, hmem, hloop, -⟩ := exists_of_mem_close hb
      rw [← hloop]
      exact h.registered b₀ hmem
    · rw [List.mem_singleton.mp hb]
      exact Option.isSome_iff_exists.mpr ⟨siteName, hsite⟩
  · intro b hb
    rcases List.mem_append.mp hb with hb | hb
    · obtain ⟨b₀, hmem, -, hsame⟩ := exists_of_mem_close hb
      rw [← hsame]
      exact h.ofRole b₀ hmem
    · rw [List.mem_singleton.mp hb]
      exact hrole

end Transaction

/-! ## The topic -/

section Topic

variable {site : String → Option String} {timeText : ℤ → String}

theorem recordKey_injective {a b : String} (h : recordKey a = recordKey b) : a = b := by
  unfold recordKey at h
  have hlist := congrArg String.toList h
  rw [String.toList_append, String.toList_append] at hlist
  exact String.toList_inj.mp (List.append_cancel_right hlist)

theorem lastRecord_concat (topic : List BindingRecord) (loopId loopId' : String)
    (bindings : List PublishedBinding) :
    lastRecord (topic ++ [⟨recordKey loopId, loopId, bindings⟩]) loopId' =
      if loopId = loopId' then some bindings else lastRecord topic loopId' := by
  unfold lastRecord
  rw [List.filter_append, List.filter_singleton]
  by_cases hloop : loopId = loopId'
  · rw [if_pos hloop, hloop, decide_eq_true rfl]
    exact congrArg _ (List.getLast?_concat)
  · have hkey : recordKey loopId ≠ recordKey loopId' := fun h => hloop (recordKey_injective h)
    rw [if_neg hloop, decide_eq_false hkey]
    exact congrArg _ (congrArg _ (List.append_nil _))

theorem listAsync_eq {rows : List InstrumentBinding} {loopId : String}
    (hcase : ∀ a b, (site a).isSome = true → (site b).isSome = true →
      toLowerInvariant a = toLowerInvariant b → a = b)
    (hrows : ∀ b ∈ rows, (site b.loopId).isSome = true) (hloop : (site loopId).isSome = true) :
    listAsync rows loopId = historyOf rows loopId := by
  unfold listAsync historyOf
  congr 1
  refine List.filter_congr fun b hb => ?_
  rw [decide_eq_decide]
  exact ⟨hcase _ _ (hrows b hb) hloop, fun h => by rw [h]⟩

theorem begin_read (timeText : ℤ → String) (rows : List InstrumentBinding) (loopId : String)
    (request : CreateBindingRequest) (nowTicks : ℤ) (open_ : Option InstrumentBinding)
    (h : begin timeText rows loopId request nowTicks = .read open_) :
    roleOf request ∈ roles ∧ ∀ o, open_ = some o → o ∈ rows ∧ o.loopId = loopId := by
  unfold begin at h
  cases hvalid : validate request with
  | error e =>
    rw [hvalid] at h
    cases h
  | ok u =>
    rw [hvalid] at h
    dsimp only at h
    refine ⟨?_, ?_⟩
    · unfold validate at hvalid
      by_contra hrole
      rw [if_pos hrole] at hvalid
      cases hvalid
    · split at h
      · cases h
      · obtain rfl := Progress.read.inj h
        intro o ho
        have hfound := List.find?_some ho
        exact ⟨List.mem_of_find?_eq_some ho, (of_decide_eq_true hfound).1⟩

/-- What holds between the steps: a loop's record agrees, or a call accounts for it. -/
structure Tracks (site : String → Option String) (s : Bindings) : Prop where
  kept : WellKept site s.rows
  ofRole : ∀ c ∈ s.calls, ∀ open_, c.progress = .read open_ → roleOf c.request ∈ roles
  own : ∀ c ∈ s.calls, ∀ o, c.progress = .read (some o) →
    ∃ b ∈ s.rows, b.bindingId = o.bindingId ∧ b.loopId = c.loopId
  agreed : ∀ loopId, Agrees s loopId ∨ ∃ c ∈ s.calls, c.loopId = loopId ∧ c.pending = true

theorem Agrees.congr {s t : Bindings} (hrows : t.rows = s.rows) (htopic : t.topic = s.topic)
    {loopId : String} (h : Agrees s loopId) : Agrees t loopId := by
  unfold Agrees at h ⊢
  rw [hrows, htopic]
  exact h

theorem Tracks.set {s : Bindings} (h : Tracks site s) {k : ℕ} {c : Call} (hk : s.calls[k]? = some c)
    {progress : Progress} (hprogress : ∀ o, progress ≠ .read o)
    (hpending : c.pending = true → ({ c with progress := progress } : Call).pending = true) :
    Tracks site { s with calls := s.calls.set k { c with progress := progress } } := by
  have hlt : k < s.calls.length := (List.getElem?_eq_some_iff.mp hk).1
  refine ⟨h.kept, ?_, ?_, ?_⟩
  · intro d hd open_ hread
    rcases List.mem_or_eq_of_mem_set hd with hd | rfl
    · exact h.ofRole d hd open_ hread
    · exact absurd hread (hprogress open_)
  · intro d hd o hread
    rcases List.mem_or_eq_of_mem_set hd with hd | rfl
    · exact h.own d hd o hread
    · exact absurd hread (hprogress (some o))
  · intro loopId
    rcases h.agreed loopId with hagrees | ⟨d, hd, hloop, hd'⟩
    · exact .inl (hagrees.congr rfl rfl)
    · by_cases hdc : d = c
      · subst hdc
        exact .inr ⟨_, List.mem_set hlt _, hloop, hpending hd'⟩
      · exact .inr ⟨d, mem_set_of_ne hk hd hdc, hloop, hd'⟩

theorem Tracks.append {s : Bindings} (h : Tracks site s) (c : Call)
    (hread : ∀ open_, c.progress = .read open_ → roleOf c.request ∈ roles ∧
      ∀ o, open_ = some o → o ∈ s.rows ∧ o.loopId = c.loopId) :
    Tracks site { s with calls := s.calls ++ [c] } := by
  refine ⟨h.kept, ?_, ?_, ?_⟩
  · intro d hd open_ hd'
    rcases List.mem_append.mp hd with hd | hd
    · exact h.ofRole d hd open_ hd'
    · rw [List.mem_singleton.mp hd] at hd' ⊢
      exact (hread open_ hd').1
  · intro d hd o hd'
    rcases List.mem_append.mp hd with hd | hd
    · exact h.own d hd o hd'
    · rw [List.mem_singleton.mp hd] at hd' ⊢
      obtain ⟨hmem, hloop⟩ := (hread _ hd').2 o rfl
      exact ⟨o, hmem, rfl, hloop⟩
  · intro loopId
    rcases h.agreed loopId with hagrees | ⟨d, hd, hloop, hpending⟩
    · exact .inl (hagrees.congr rfl rfl)
    · exact .inr ⟨d, List.mem_append_left _ hd, hloop, hpending⟩

theorem Tracks.commit {s : Bindings} (h : Tracks site s) {k : ℕ} {c : Call}
    {open_ : Option InstrumentBinding} {rows : List InstrumentBinding} {bindingId : ℕ}
    {approvedAt : ℤ} (hk : s.calls[k]? = some c) (hread : c.progress = .read open_)
    (hok : transact site timeText s.rows c open_ bindingId approvedAt = .ok rows) :
    Tracks site { s with
      rows := rows, calls := s.calls.set k { c with progress := .committed } } := by
  have hlt : k < s.calls.length := (List.getElem?_eq_some_iff.mp hk).1
  have hc : c ∈ s.calls := List.mem_of_getElem? hk
  have hkept := h.kept.transact (h.ofRole c hc open_ hread) hok
  obtain ⟨siteName, -, -, -, rfl⟩ := transact_ok hok
  refine ⟨hkept, ?_, ?_, ?_⟩
  · intro d hd o hread'
    rcases List.mem_or_eq_of_mem_set hd with hd | rfl
    · exact h.ofRole d hd o hread'
    · cases hread'
  · intro d hd o hread'
    rcases List.mem_or_eq_of_mem_set hd with hd | rfl
    · obtain ⟨b, hb, hid, hloop⟩ := h.own d hd o hread'
      have hpair : (b.bindingId, b.loopId) ∈ (close s.rows open_ c.start).map fun b =>
          (b.bindingId, b.loopId) := by
        rw [map_close (fun b => (b.bindingId, b.loopId)) fun _ _ => rfl]
        exact List.mem_map_of_mem hb
      obtain ⟨b', hb', heq⟩ := List.mem_map.mp hpair
      obtain ⟨hid', hloop'⟩ := Prod.mk.inj heq
      exact ⟨b', List.mem_append_left _ hb', hid'.trans hid, hloop'.trans hloop⟩
    · cases hread'
  · intro loopId
    by_cases hloop : c.loopId = loopId
    · exact .inr ⟨_, List.mem_set hlt _, hloop, rfl⟩
    · rcases h.agreed loopId with hagrees | ⟨d, hd, hdloop, hpending⟩
      · -- the row that the update ends is of the loop of the call
        have hother : ∀ o, open_ = some o → ∀ b ∈ s.rows, b.bindingId = o.bindingId →
            b.loopId ≠ loopId := by
          rintro o rfl b hb hid hbloop
          obtain ⟨b', hb', hid', hloop'⟩ := h.own c hc o hread
          have hsame : b = b' :=
            List.inj_on_of_nodup_map h.kept.ids hb hb' (hid.trans hid'.symm)
          exact hloop (hloop'.symm.trans (hsame ▸ hbloop))
        have hfilter : (close s.rows open_ c.start ++
            [inserted c siteName bindingId approvedAt]).filter (fun b => b.loopId = loopId) =
              s.rows.filter fun b => b.loopId = loopId := by
          have hnew : decide ((inserted c siteName bindingId approvedAt).loopId = loopId) = false :=
            decide_eq_false hloop
          rw [List.filter_append, filter_close hother, List.filter_singleton, hnew]
          exact List.append_nil _
        refine .inl fun hexists => ?_
        unfold historyOf
        dsimp only at hexists ⊢
        rw [hfilter]
        refine hagrees ?_
        obtain ⟨b, hb, hbloop⟩ := hexists
        have hmem : b ∈ s.rows.filter fun b => b.loopId = loopId :=
          hfilter ▸ List.mem_filter.mpr ⟨hb, decide_eq_true hbloop⟩
        exact ⟨b, (List.mem_filter.mp hmem).1, hbloop⟩
      · have hne : d ≠ c := fun heq => hloop (heq ▸ hdloop)
        exact .inr ⟨d, mem_set_of_ne hk hd hne, hdloop, hpending⟩

theorem Tracks.publish {s : Bindings} (h : Tracks site s)
    (hcase : ∀ a b, (site a).isSome = true → (site b).isSome = true →
      toLowerInvariant a = toLowerInvariant b → a = b)
    {k : ℕ} {c : Call} (hk : s.calls[k]? = some c) {history : List InstrumentBinding}
    (hcurrent : history = listAsync s.rows c.loopId) :
    Tracks site { s with
      topic := s.topic ++ [⟨recordKey c.loopId, c.loopId, history.map publishedOf⟩]
      calls := s.calls.set k { c with progress := .returned } } := by
  refine ⟨h.kept, ?_, ?_, ?_⟩
  · intro d hd o hread
    rcases List.mem_or_eq_of_mem_set hd with hd | rfl
    · exact h.ofRole d hd o hread
    · cases hread
  · intro d hd o hread
    rcases List.mem_or_eq_of_mem_set hd with hd | rfl
    · exact h.own d hd o hread
    · cases hread
  · intro loopId
    by_cases hloop : c.loopId = loopId
    · left
      rintro ⟨b, hb, hbloop⟩
      have hregistered : (site c.loopId).isSome = true := by
        rw [hloop, ← hbloop]
        exact h.kept.registered b hb
      dsimp only
      rw [lastRecord_concat, if_pos hloop, hcurrent,
        listAsync_eq hcase h.kept.registered hregistered, hloop]
    · rcases h.agreed loopId with hagrees | ⟨d, hd, hdloop, hpending⟩
      · left
        intro hexists
        dsimp only
        rw [lastRecord_concat, if_neg hloop]
        exact hagrees hexists
      · have hne : d ≠ c := fun heq => hloop (heq ▸ hdloop)
        exact .inr ⟨d, mem_set_of_ne hk hd hne, hdloop, hpending⟩

theorem Tracks.step {s : Bindings} (h : Tracks site s)
    (hcase : ∀ a b, (site a).isSome = true → (site b).isSome = true →
      toLowerInvariant a = toLowerInvariant b → a = b)
    (e : Event) (hcurrent : Current s e = true) :
    Tracks site (InstrumentBindingService.step site timeText s e).1 := by
  cases e with
  | create loopId request actor nowTicks =>
    have hbegin := begin_read timeText s.rows loopId request nowTicks
    unfold InstrumentBindingService.step
    dsimp only
    generalize begin timeText s.rows loopId request nowTicks = progress at hbegin ⊢
    exact h.append ⟨loopId, request, actor, _, progress⟩ hbegin
  | commit k bindingId approvedAt =>
    unfold InstrumentBindingService.step
    dsimp only
    cases hk : s.calls[k]? with
    | none => exact h
    | some c =>
      dsimp only
      split
      · rename_i open_ hread
        cases hok : InstrumentBindingService.transact site timeText s.rows c open_ bindingId
            approvedAt with
        | ok rows => exact h.commit hk hread hok
        | error e =>
          refine h.set hk nofun fun hpending => ?_
          unfold Call.pending at hpending
          rw [hread] at hpending
          cases hpending
      · exact h
  | list k =>
    unfold InstrumentBindingService.step
    dsimp only
    cases hk : s.calls[k]? with
    | none => exact h
    | some c =>
      dsimp only
      split
      · exact h.set hk nofun fun _ => rfl
      · exact h
  | publish k =>
    unfold InstrumentBindingService.step
    dsimp only
    cases hk : s.calls[k]? with
    | none => exact h
    | some c =>
      dsimp only
      split
      · rename_i history hlisted
        unfold Current at hcurrent
        dsimp only at hcurrent
        rw [hk, Option.all_some] at hcurrent
        unfold Call.current at hcurrent
        rw [hlisted] at hcurrent
        exact h.publish hcase hk (of_decide_eq_true hcurrent)
      · exact h

end Topic

/-- After any steps that publish current lists only, a query of a signal as of a time has at most one
answer, and once the calls have returned the last record of every loop with a binding lists its
history. -/
theorem bindings_agree (site : String → Option String) (timeText : ℤ → String)
    (hcase : ∀ a b, (site a).isSome = true → (site b).isSome = true →
      toLowerInvariant a = toLowerInvariant b → a = b)
    (s : Bindings) (hkept : WellKept site s.rows) (hcalls : s.calls = [])
    (hagrees : ∀ loopId, Agrees s loopId) (run : List Event)
    (hcurrent : Machine.Always (step site timeText) (fun t e => Current t e = true) s run) :
    Timelines (after site timeText s run).rows ∧
      (∀ loopId role t, (answers (after site timeText s run).rows loopId role t).length ≤ 1) ∧
      ((∀ c ∈ (after site timeText s run).calls, c.settled = true) →
        ∀ loopId, Agrees (after site timeText s run) loopId) := by
  have hstart : Tracks site s := by
    refine ⟨hkept, ?_, ?_, fun loopId => .inl (hagrees loopId)⟩
    · rw [hcalls]
      exact fun _ hc => absurd hc List.not_mem_nil
    · rw [hcalls]
      exact fun _ hc => absurd hc List.not_mem_nil
  have htracks : Tracks site (after site timeText s run) :=
    Machine.stateAfter_of_always _ (Tracks site) (fun _ e ht he => ht.step hcase e he) hstart hcurrent
  refine ⟨htracks.kept.timelines, htracks.kept.length_answers_le, fun hsettled loopId => ?_⟩
  rcases htracks.agreed loopId with hagree | ⟨c, hc, -, hpending⟩
  · exact hagree
  · have hdone := hsettled c hc
    unfold Call.settled at hdone
    unfold Call.pending at hpending
    cases hprogress : c.progress <;> rw [hprogress] at hdone hpending <;> cases hdone <;>
      cases hpending

def requested (role device : String) (start : ℤ) : CreateBindingRequest :=
  { signalRole := some role, deviceId := some device, installationId := none,
    sourceId := some "instr-prm-1", validFrom := some start, note := none }

def oneLoop (loopId : String) : Option String := if loopId = "FIC101" then some "PRM" else none

def september : ℤ := 639244224000000000

def serialBindings : List Event :=
  [.create "FIC101" (requested "PV" "TT-1" september) "eng" 0, .commit 0 1 0, .list 0, .publish 0,
    .create "FIC101" (requested "VP" "ZT-1" september) "eng" 0, .commit 1 2 0, .list 1, .publish 1]

theorem bindings_agree_serial :
    Timelines (after oneLoop toString ⟨[], [], []⟩ serialBindings).rows ∧
      (∀ loopId role t,
        (answers (after oneLoop toString ⟨[], [], []⟩ serialBindings).rows loopId role t).length ≤ 1) ∧
      ((∀ c ∈ (after oneLoop toString ⟨[], [], []⟩ serialBindings).calls, c.settled = true) →
        ∀ loopId, Agrees (after oneLoop toString ⟨[], [], []⟩ serialBindings) loopId) := by
  refine bindings_agree oneLoop toString ?_ ⟨[], [], []⟩ ⟨.nil, .nil, nofun, nofun⟩ rfl
    (fun _ h => absurd h (by simp)) serialBindings ?_
  · intro a b ha hb _
    unfold oneLoop at ha hb
    split at ha
    · rename_i haloop
      split at hb
      · rename_i hbloop
        rw [haloop, hbloop]
      · cases hb
    · cases ha
  · decide

def overtaken : List Event :=
  [.create "FIC101" (requested "PV" "TT-1" september) "eng" 0, .commit 0 1 0, .list 0,
    .create "FIC101" (requested "VP" "ZT-1" september) "eng" 0, .commit 1 2 0, .list 1, .publish 1,
    .publish 0]

/-- The last record lacks a binding. -/
theorem record_overtaken : ¬ ∀ (site : String → Option String) (timeText : ℤ → String)
    (run : List Event), (∀ c ∈ (after site timeText ⟨[], [], []⟩ run).calls, c.settled = true) →
    ∀ loopId, Agrees (after site timeText ⟨[], [], []⟩ run) loopId := by
  intro h
  have hagrees := h oneLoop toString overtaken (by decide) "FIC101" (by decide)
  revert hagrees
  decide

end InstrumentBindingService

end OpenBridge.Registry
