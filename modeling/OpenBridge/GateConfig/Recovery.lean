import OpenBridge.Foundation.Compaction
import OpenBridge.Foundation.Recency
import OpenBridge.GateConfig.Reception

/-!
# Gate configuration: recovery from the compacted control topic

The control plane publishes `PREPARE` and `APPLY` of a bundle under one record key, so compaction
keeps the latest phase of each bundle.  A worker that starts from empty state and reads the
compacted topic selects the same bundles as one that read all of it when, of the most recent
activations of each scope, the `APPLY` is the latest record of its bundle and a `PREPARE` of the
same hash is still there before it.
-/

namespace OpenBridge.GateConfig

open OpenBridge.Foundation
open ControlPlane.BundleEnvelope (Publication)
open ControlPlane.BundleEnvelope.Publication
open BundleBroadcastHandler
open EffectiveBundleSelector

/-- A record of the control topic: a message that the control plane published. -/
structure ControlRecord (serviceKey : String) where
  offset : ℕ
  publication : Publication
  value : Json
  published : publication.message serviceKey = .ok value

namespace ControlRecord

variable {serviceKey : String} (r : ControlRecord serviceKey)

def key : String := r.publication.key

def hash : String := r.publication.view.contentHash

def bundle : GateConfigBundle := r.publication.received

/-- A `PREPARE` that a worker verifies and finds valid. -/
def Prepares (jobName : String) (hmacKey : Option String) : Prop :=
  r.publication.phase = "PREPARE" ∧ verify r.value hmacKey = .ok none ∧
    r.bundle.validate jobName = .ok []

instance (jobName : String) (hmacKey : Option String) : Decidable (r.Prepares jobName hmacKey) :=
  inferInstanceAs (Decidable (_ ∧ _ ∧ _))

/-- An `APPLY` that a worker verifies. -/
def Applies (hmacKey : Option String) : Prop :=
  r.publication.phase = "APPLY" ∧ verify r.value hmacKey = .ok none

instance (hmacKey : Option String) : Decidable (r.Applies hmacKey) :=
  inferInstanceAs (Decidable (_ ∧ _))

/-- The state after the record, when the worker does not stop at it. -/
def advance (jobName : String) (hmacKey : Option String) (s : ActiveConfigState) :
    ActiveConfigState :=
  if r.Prepares jobName hmacKey then
    { s with prepared := s.prepared.set r.hash r.publication.document }
  else if r.Applies hmacKey ∧ s.prepared.contains r.hash = true then
    applyBundle s r.bundle r.publication.deploymentId
  else s

end ControlRecord

structure ControlTopic (serviceKey : String) where
  records : List (ControlRecord serviceKey)
  ordered : records.Pairwise fun r r' => r.offset < r'.offset

namespace ControlTopic

variable {serviceKey : String}

def values (topic : ControlTopic serviceKey) : List (Except String Json) :=
  topic.records.map fun r => .ok r.value

def compacted (topic : ControlTopic serviceKey) : ControlTopic serviceKey where
  records := Compaction.compact ControlRecord.key topic.records
  ordered := topic.ordered.sublist Compaction.compact_sublist

theorem nodup (topic : ControlTopic serviceKey) : topic.records.Nodup :=
  topic.ordered.imp fun h heq => absurd (congrArg ControlRecord.offset heq) (Nat.ne_of_lt h)

end ControlTopic

namespace Recovery

variable {serviceKey jobName : String} {hmacKey : Option String} {s s' : ActiveConfigState}
  {topic : ControlTopic serviceKey} {r : ControlRecord serviceKey}
  {log : List (ControlRecord serviceKey)}

/-- The accepted `APPLY` records, when bundles of the given hashes are prepared already. -/
def accepted (jobName : String) (hmacKey : Option String) :
    List String → List (ControlRecord serviceKey) → List (ControlRecord serviceKey)
  | _, [] => []
  | prepared, r :: rest =>
      if r.Prepares jobName hmacKey then accepted jobName hmacKey (r.hash :: prepared) rest
      else if r.Applies hmacKey ∧ r.hash ∈ prepared then r :: accepted jobName hmacKey prepared rest
      else accepted jobName hmacKey prepared rest

/-- The accepted `APPLY` records of a scope that its active list remembers: the latest of each of
the most recently applied hashes. -/
def remembered (jobName : String) (hmacKey : Option String) (topic : ControlTopic serviceKey)
    (scope : String) : List (ControlRecord serviceKey) :=
  Recency.recent ControlRecord.hash activeHistory []
    ((accepted jobName hmacKey [] topic.records).filter (·.bundle.scopeKey = scope)).reverse

/-- Every remembered `APPLY` is accepted in the compacted topic too: it is the latest record of its
bundle, and an accepted `PREPARE` of its hash comes before it there. -/
def Recoverable (jobName : String) (hmacKey : Option String) (topic : ControlTopic serviceKey) :
    Prop :=
  ∀ scope, ∀ r ∈ remembered jobName hmacKey topic scope,
    r ∈ accepted jobName hmacKey [] topic.compacted.records

/-- Each content hash belongs to one bundle, which has one kind of scope. -/
def Owned (topic : ControlTopic serviceKey) : Prop :=
  ∀ r ∈ topic.records, ∀ r' ∈ topic.records, r.hash = r'.hash →
    r.key = r'.key ∧ r.bundle.scopeKind = r'.bundle.scopeKind

def selectedHash (s : ActiveConfigState) (site : String) (loopId gateProfileId : Option String)
    (t : ℤ) : Except String (Option String) :=
  (select s site loopId gateProfileId t Dict.empty).map (·.1.bundle.map (·.hash))

def SameSelection (s s' : ActiveConfigState) : Prop :=
  ∀ (site : String) (loopId gateProfileId : Option String) (t : ℤ),
    selectedHash s' site loopId gateProfileId t = selectedHash s site loopId gateProfileId t

theorem value_eq (r : ControlRecord serviceKey) :
    ∃ signature, r.value = r.publication.signed signature := by
  have h := r.published
  simp only [message] at h
  cases hs : CanonicalJson.signature r.publication.document serviceKey with
  | error e => simp [hs, bind, Except.bind] at h
  | ok signature =>
    simp only [hs, bind, Except.bind, Except.ok.injEq] at h
    exact ⟨signature, h.symm⟩

theorem handle_record (h : (handle jobName hmacKey (.ok r.value) s).isOk = true)
    (s' : ActiveConfigState) :
    (handle jobName hmacKey (.ok r.value) s').map Prod.fst =
      .ok (r.advance jobName hmacKey s') := by
  obtain ⟨signature, hvalue⟩ := value_eq r
  have hprepares : r.Prepares jobName hmacKey ↔ r.publication.phase = "PREPARE" ∧
      verify (r.publication.signed signature) hmacKey = .ok none ∧
        r.publication.received.validate jobName = .ok [] := hvalue ▸ Iff.rfl
  have happlies : r.Applies hmacKey ↔ r.publication.phase = "APPLY" ∧
      verify (r.publication.signed signature) hmacKey = .ok none := hvalue ▸ Iff.rfl
  have hhash : r.publication.received.hash = r.hash := rfl
  have hbundle : r.publication.received = r.bundle := rfl
  simp only [ControlRecord.advance, hprepares, happlies]
  rw [hvalue] at h ⊢
  simp only [handle, isBundleRecord_signed, parse_signed, phase_signed, get_bundle_signed,
    not_true_eq_false, if_false, hhash] at h ⊢
  cases hv : verify (r.publication.signed signature) hmacKey with
  | error e => simp [hv, bind, Except.bind, Except.isOk, Except.toBool] at h
  | ok unsigned =>
    cases unsigned with
    | some reason => simp [bind, Except.bind, Except.map]
    | none =>
      simp only [hv, bind, Except.bind] at h ⊢
      by_cases hprepare : r.publication.phase = "PREPARE"
      · simp only [hprepare, if_true] at h ⊢
        cases hvalid : r.publication.received.validate jobName with
        | error e => simp [hvalid, Except.isOk, Except.toBool] at h
        | ok reasons =>
          by_cases hreasons : reasons = []
          · simp [hreasons, Except.map]
          · simp [hreasons, Except.map]
      · by_cases happly : r.publication.phase = "APPLY"
        · by_cases hprepared : s'.prepared.contains r.hash = true
          · simp [happly, hprepared, Except.map, hbundle, signed, Json.get_object, List.lookup_cons,
              JsonNode.asText, Json.asText]
          · simp [happly, hprepared, Except.map]
        · simp [hprepare, happly, Except.map]

/-! ## A whole log -/

def replay (jobName : String) (hmacKey : Option String) (log : List (ControlRecord serviceKey)) :
    ActiveConfigState :=
  log.foldl (fun s r => r.advance jobName hmacKey s) ActiveConfigState.empty

theorem handles_of_after (h : after jobName hmacKey (log.map fun r => .ok r.value) = .ok s) :
    ∀ r ∈ log, ∃ s₀, (handle jobName hmacKey (.ok r.value) s₀).isOk = true := by
  induction log using List.reverseRecOn generalizing s with
  | nil => simp
  | append_singleton log last ih =>
    rw [List.map_append, List.map_singleton, after_concat] at h
    cases hpre : after jobName hmacKey (log.map fun r => .ok r.value) with
    | error e => simp [hpre, Except.bind] at h
    | ok s₁ =>
      intro r hr
      rcases List.mem_append.mp hr with hr | hr
      · exact ih hpre r hr
      · rw [List.mem_singleton.mp hr]
        refine ⟨s₁, ?_⟩
        rw [hpre] at h
        cases hlast : handle jobName hmacKey (.ok last.value) s₁ with
        | error e => simp [hlast, Except.bind, Except.map] at h
        | ok next => rfl

theorem after_of_handles
    (h : ∀ r ∈ log, ∃ s₀, (handle jobName hmacKey (.ok r.value) s₀).isOk = true) :
    after jobName hmacKey (log.map fun r => .ok r.value) = .ok (replay jobName hmacKey log) := by
  induction log using List.reverseRecOn with
  | nil => rfl
  | append_singleton log last ih =>
    obtain ⟨s₀, hlast⟩ := h last (by simp)
    rw [List.map_append, List.map_singleton, after_concat, ih fun r hr => h r (by simp [hr])]
    simp only [Except.bind, handle_record hlast, replay, List.foldl_append, List.foldl_cons,
      List.foldl_nil]

theorem after_sublist {part : List (ControlRecord serviceKey)} (hpart : part.Sublist log)
    (h : after jobName hmacKey (log.map fun r => .ok r.value) = .ok s) :
    after jobName hmacKey (part.map fun r => .ok r.value) = .ok (replay jobName hmacKey part) :=
  after_of_handles fun r hr => handles_of_after h r (hpart.subset hr)

/-! ### The active lists -/

def entryCore (e : ActiveEntry) : String × ℤ := (e.hash, e.effectiveFromMs)

def recordCore (r : ControlRecord serviceKey) : String × ℤ := (r.hash, r.bundle.effectiveFromMs)

theorem entryCore_applyBundle (s : ActiveConfigState) (r : ControlRecord serviceKey)
    (scope : String) :
    ((applyBundle s r.bundle r.publication.deploymentId).entries scope).map entryCore =
      if r.bundle.scopeKey = scope then
        Recency.touch Prod.fst activeHistory ((s.entries scope).map entryCore) (recordCore r)
      else (s.entries scope).map entryCore := by
  -- activating is touching the history under the hash
  have htouch (list : List ActiveEntry) (entry : ActiveEntry) :
      (activate list entry).map entryCore =
        Recency.touch Prod.fst activeHistory (list.map entryCore) (entryCore entry) :=
    @Recency.touch_map _ _ _ ActiveEntry.hash _ list entry _ Prod.fst entryCore fun _ => rfl
  simp only [ActiveConfigState.entries, applyBundle, Dict.get?_set]
  by_cases hscope : r.bundle.scopeKey = scope
  · rw [if_pos hscope.symm, if_pos hscope, Option.getD_some, htouch, hscope]
    rfl
  · rw [if_neg fun h => hscope h.symm, if_neg hscope]

theorem entryCore_foldl {prepared : List String}
    (hprepared : ∀ h, s.prepared.contains h = true ↔ h ∈ prepared) (scope : String) :
    ((log.foldl (fun s r => r.advance jobName hmacKey s) s).entries scope).map entryCore =
      (((accepted jobName hmacKey prepared log).filter (·.bundle.scopeKey = scope)).map
        recordCore).foldl (Recency.touch Prod.fst activeHistory)
          ((s.entries scope).map entryCore) := by
  induction log generalizing s prepared with
  | nil => rfl
  | cons r rest ih =>
    rw [List.foldl_cons, accepted]
    by_cases hp : r.Prepares jobName hmacKey
    · rw [ControlRecord.advance, if_pos hp, if_pos hp]
      refine ih fun h => ?_
      rw [List.mem_cons, ← hprepared h]
      simp only [Dict.contains, Dict.get?_set]
      by_cases heq : h = r.hash <;> simp [heq]
    · rw [ControlRecord.advance, if_neg hp, if_neg hp]
      by_cases ha : r.Applies hmacKey ∧ r.hash ∈ prepared
      · have ha' := And.imp_right (hprepared r.hash).mpr ha
        have hprepared' : ∀ h, (applyBundle s r.bundle r.publication.deploymentId).prepared.contains h =
            true ↔ h ∈ prepared := hprepared
        rw [if_pos ha, if_pos ha', ih hprepared', entryCore_applyBundle]
        by_cases hscope : r.bundle.scopeKey = scope
        · rw [if_pos hscope, List.filter_cons_of_pos (by simpa using hscope), List.map_cons,
            List.foldl_cons]
        · rw [if_neg hscope, List.filter_cons_of_neg (by simpa using hscope)]
      · rw [if_neg ha, if_neg fun h => ha (And.imp_right (hprepared r.hash).mp h)]
        exact ih hprepared

theorem entryCore_replay (topic : ControlTopic serviceKey) (scope : String) :
    ((replay jobName hmacKey topic.records).entries scope).map entryCore =
      (remembered jobName hmacKey topic scope).map recordCore := by
  have hempty : ∀ h, ActiveConfigState.empty.prepared.contains h = true ↔ h ∈ ([] : List String) := by
    simp [ActiveConfigState.empty, Dict.contains]
  have hnil : (ActiveConfigState.empty.entries scope).map entryCore = [] := by
    simp [ActiveConfigState.empty, ActiveConfigState.entries]
  have hhistory : activeHistory = 3 + 1 := rfl
  rw [replay, entryCore_foldl hempty, hnil, hhistory, Recency.foldl_touch, ← List.map_reverse]
  exact Recency.recent_map fun _ => rfl

theorem document_replay {hash : String} {doc : Json}
    (h : (replay jobName hmacKey log).prepared.get? hash = some doc) :
    ∃ p : Publication, doc = p.document ∧ p.view.contentHash = hash := by
  induction log using List.reverseRecOn generalizing hash doc with
  | nil => simp [replay, ActiveConfigState.empty] at h
  | append_singleton log r ih =>
    simp only [replay, List.foldl_append, List.foldl_cons, List.foldl_nil] at h
    rw [ControlRecord.advance] at h
    split at h
    · rw [Dict.get?_set] at h
      split at h
      · rename_i heq
        exact ⟨r.publication, (Option.some.inj h).symm, heq.symm⟩
      · exact ih h
    · split at h
      · exact ih h
      · exact ih h

theorem stored_replay (hsound : Sound (replay jobName hmacKey log)) {scope : String}
    {e : ActiveEntry} (he : e ∈ (replay jobName hmacKey log).entries scope) :
    ∃ c, stored (replay jobName hmacKey log) e.hash = .ok (some c) ∧ c.hash = e.hash := by
  have hcontains := hsound.prepared scope e he
  simp only [Dict.contains] at hcontains
  obtain ⟨doc, hdoc⟩ := Option.isSome_iff_exists.mp hcontains
  obtain ⟨p, rfl, hhash⟩ := document_replay hdoc
  refine ⟨{ p.received with effectiveFromMs := GateConfigBundle.effectiveFrom p.document }, ?_,
    hhash⟩
  simp only [stored, hdoc, parse_of_document document_document, Except.map]

/-! ## The selection -/

def decidingHash (cores : String → List (String × ℤ)) (t : ℤ) : List String → Option String
  | [] => none
  | scope :: rest =>
      match EffectiveDating.latest Prod.snd t (cores scope) with
      | some core => some core.1
      | none => decidingHash cores t rest

theorem decidingHash_eq_none_iff {cores : String → List (String × ℤ)} {t : ℤ} {l : List String} :
    decidingHash cores t l = none ↔ ∀ scope ∈ l, ∀ core ∈ cores scope, t < core.2 := by
  induction l with
  | nil => simp [decidingHash]
  | cons scope rest ih =>
    simp only [decidingHash, List.mem_cons, forall_eq_or_imp]
    cases hl : EffectiveDating.latest Prod.snd t (cores scope) with
    | none =>
      simp only [ih]
      exact ⟨fun h => ⟨EffectiveDating.latest_eq_none_iff.mp hl, h⟩, And.right⟩
    | some core =>
      obtain ⟨hmem, hle⟩ := EffectiveDating.latest_mem hl
      simp only [reduceCtorEq, false_iff, not_and]
      exact fun h => absurd (h core hmem) (not_lt.mpr hle)

theorem choice_hash {t : ℤ} (hstored : ∀ scope, ∀ e ∈ s.entries scope,
      ∃ c, stored s e.hash = .ok (some c) ∧ c.hash = e.hash) (l : List String) :
    (choice s t l).map (fun c => (ofChoice 0 c).bundle.map (·.hash)) =
      .ok (decidingHash (fun scope => (s.entries scope).map entryCore) t l) := by
  induction l with
  | nil => rfl
  | cons scope rest ih =>
    have hlatest : EffectiveDating.latest Prod.snd t ((s.entries scope).map entryCore) =
        (governing (s.entries scope) t).map entryCore :=
      EffectiveDating.latest_map fun _ => rfl
    simp only [choice, decidingHash, hlatest]
    cases hg : governing (s.entries scope) t with
    | none => exact ih
    | some e =>
      obtain ⟨c, hc, hhash⟩ := hstored scope e (EffectiveDating.latest_mem hg).1
      simp only [hc, Option.map_some, Except.map, ofChoice, selectedOf, hhash, entryCore]

theorem selectedHash_eq (hstored : ∀ scope, ∀ e ∈ s.entries scope,
      ∃ c, stored s e.hash = .ok (some c) ∧ c.hash = e.hash)
    (site : String) (loopId gateProfileId : Option String) (t : ℤ) :
    selectedHash s site loopId gateProfileId t = .ok (decidingHash
      (fun scope => (s.entries scope).map entryCore) t (scopes site loopId gateProfileId)) := by
  have hgoverns := @select_governs s t site loopId gateProfileId
  rw [← choice_hash hstored]
  simp only [selectedHash]
  cases hs : select s site loopId gateProfileId t Dict.empty with
  | error e =>
    cases hc : choice s t (scopes site loopId gateProfileId) with
    | error e' => simpa [hs, hc, Except.map] using hgoverns
    | ok c => simp [hs, hc, Except.map] at hgoverns
  | ok r =>
    cases hc : choice s t (scopes site loopId gateProfileId) with
    | error e' => simp [hs, hc, Except.map] at hgoverns
    | ok c =>
      simp only [hs, hc, Except.map, Except.ok.injEq, Selected.governs, Prod.mk.injEq] at hgoverns ⊢
      rw [hgoverns.1]

theorem selectedHash_replay (topic : ControlTopic serviceKey)
    (h : after jobName hmacKey topic.values = .ok (replay jobName hmacKey topic.records))
    (site : String) (loopId gateProfileId : Option String) (t : ℤ) :
    selectedHash (replay jobName hmacKey topic.records) site loopId gateProfileId t =
      .ok (decidingHash (fun scope => (remembered jobName hmacKey topic scope).map recordCore) t
        (scopes site loopId gateProfileId)) := by
  rw [selectedHash_eq fun _ _ he => stored_replay (sound_after h) he]
  simp only [entryCore_replay]

/-! ## Recovery -/

theorem accepted_sublist {prepared : List String} :
    (accepted jobName hmacKey prepared log).Sublist log := by
  induction log generalizing prepared with
  | nil => exact List.Sublist.slnil
  | cons r rest ih =>
    simp only [accepted]
    split
    · exact ih.cons r
    · split
      · exact ih.cons_cons r
      · exact ih.cons r

theorem accepted_mono {part : List (ControlRecord serviceKey)} (hpart : part.Sublist log)
    {prepared prepared' : List String} (hsub : prepared ⊆ prepared') :
    (accepted jobName hmacKey prepared part).Sublist (accepted jobName hmacKey prepared' log) := by
  induction hpart generalizing prepared prepared' with
  | slnil => exact List.Sublist.slnil
  | cons r _ ih =>
    rw [accepted.eq_def _ _ _ (r :: _)]
    simp only
    split
    · exact ih fun x hx => List.mem_cons_of_mem _ (hsub hx)
    · split
      · exact (ih hsub).cons r
      · exact ih hsub
  | cons_cons r _ ih =>
    simp only [accepted]
    split
    · exact ih (List.cons_subset_cons _ hsub)
    · split
      · rename_i ha
        rw [if_pos (And.imp_right (@hsub _) ha)]
        exact (ih hsub).cons_cons r
      · split
        · exact (ih hsub).cons r
        · exact ih hsub

theorem remembered_compacted (h : Recoverable jobName hmacKey topic) (scope : String) :
    remembered jobName hmacKey topic.compacted scope = remembered jobName hmacKey topic scope := by
  have hsub : (accepted jobName hmacKey [] topic.compacted.records).Sublist
      (accepted jobName hmacKey [] topic.records) :=
    accepted_mono Compaction.compact_sublist (List.Subset.refl _)
  refine Recency.recent_sublist (hsub.filter _).reverse ?_ fun r hr => ?_
  · exact List.nodup_reverse.mpr ((topic.nodup.sublist accepted_sublist).filter _)
  · rw [List.mem_reverse, List.mem_filter]
    have hmem := Recency.mem_of_mem_recent hr
    rw [List.mem_reverse, List.mem_filter] at hmem
    exact ⟨h scope r hr, hmem.2⟩

theorem sameSelection_of_recoverable (h : Recoverable jobName hmacKey topic)
    (hfull : after jobName hmacKey topic.values = .ok (replay jobName hmacKey topic.records))
    (hpart : after jobName hmacKey topic.compacted.values =
      .ok (replay jobName hmacKey topic.compacted.records)) :
    SameSelection (replay jobName hmacKey topic.records)
      (replay jobName hmacKey topic.compacted.records) := by
  intro site loopId gateProfileId t
  rw [selectedHash_replay topic hfull, selectedHash_replay topic.compacted hpart]
  simp only [remembered_compacted h]

/-! ## Recovery where every hash has one bundle -/

theorem accepted_of_pairwise (hpairwise : log.Pairwise fun r r' => r.hash ≠ r'.hash)
    {prepared : List String} (hfresh : ∀ r ∈ log, r.hash ∉ prepared) :
    accepted jobName hmacKey prepared log = [] := by
  induction log generalizing prepared with
  | nil => rfl
  | cons r rest ih =>
    obtain ⟨hr, hrest⟩ := List.pairwise_cons.mp hpairwise
    simp only [accepted]
    split
    · refine ih hrest fun r' hr' => ?_
      simp only [List.mem_cons, not_or]
      exact ⟨fun h => hr r' hr' h.symm, hfresh r' (by simp [hr'])⟩
    · rw [if_neg fun ha => hfresh r (by simp) ha.2]
      exact ih hrest fun r' hr' => hfresh r' (by simp [hr'])

theorem accepted_compacted (h : Owned topic) :
    accepted jobName hmacKey [] topic.compacted.records = [] := by
  refine accepted_of_pairwise (Compaction.compact_pairwise.imp_of_mem ?_) (by simp)
  intro r r' hr hr' hkey hhash
  exact hkey (h r (Compaction.compact_sublist.subset hr) r'
    (Compaction.compact_sublist.subset hr') hhash).1

theorem prepares_of_mem_accepted {prepared : List String}
    (h : r ∈ accepted jobName hmacKey prepared log) :
    r.hash ∈ prepared ∨ ∃ p ∈ log, p.Prepares jobName hmacKey ∧ p.hash = r.hash := by
  induction log generalizing prepared with
  | nil => simp [accepted] at h
  | cons r' rest ih =>
    have hlater (prepared' : List String) (h : r ∈ accepted jobName hmacKey prepared' rest) :
        r.hash ∈ prepared' ∨ ∃ p ∈ r' :: rest, p.Prepares jobName hmacKey ∧ p.hash = r.hash := by
      rcases ih h with h | ⟨p, hp, hprepares⟩
      · exact Or.inl h
      · exact Or.inr ⟨p, List.mem_cons_of_mem _ hp, hprepares⟩
    simp only [accepted] at h
    split at h
    · rename_i hp
      rcases hlater _ h with h | h
      · rcases List.mem_cons.mp h with h | h
        · exact Or.inr ⟨r', by simp, hp, h.symm⟩
        · exact Or.inl h
      · exact Or.inr h
    · split at h
      · rename_i ha
        rcases List.mem_cons.mp h with rfl | h
        · exact Or.inl ha.2
        · exact hlater _ h
      · exact hlater _ h

theorem scopeKind_of_validate {b : GateConfigBundle} (h : b.validate jobName = .ok []) :
    b.scopeKind = "SITE" ∨ b.scopeKind = "PROFILE" ∨ b.scopeKind = "LOOP" := by
  simp only [GateConfigBundle.validate] at h
  cases hr : b.recomputedHash with
  | error e => simp [hr, bind, Except.bind] at h
  | ok recomputed =>
    simp only [hr, bind, Except.bind, Except.ok.injEq, List.append_eq_nil_iff,
      GateConfigBundle.identityReasons] at h
    have hkind := h.1.1.1.1.1.2
    by_contra hnot
    rw [if_neg hnot] at hkind
    split at hkind <;> simp at hkind

theorem decidingHash_replay_ne_none {t : ℤ} {site : String} {loopId gateProfileId : Option String}
    {scope : String} (hscope : scope ∈ scopes site loopId gateProfileId)
    (hr : r ∈ remembered jobName hmacKey topic scope) (ht : r.bundle.effectiveFromMs ≤ t) :
    decidingHash (fun scope => (remembered jobName hmacKey topic scope).map recordCore) t
      (scopes site loopId gateProfileId) ≠ none := by
  intro h
  have := decidingHash_eq_none_iff.mp h scope hscope _ (List.mem_map_of_mem hr)
  simp only [recordCore] at this
  omega

theorem exists_scopes {b : GateConfigBundle}
    (h : b.scopeKind = "SITE" ∨ b.scopeKind = "PROFILE" ∨ b.scopeKind = "LOOP") :
    ∃ loopId gateProfileId, b.scopeKey ∈ scopes b.site loopId gateProfileId := by
  rcases h with h | h | h
  · exact ⟨none, none, by simp [scopes, GateConfigBundle.scopeKey, GateConfigBundle.scopeKeyOf, h]⟩
  · exact ⟨none, b.profileId, by simp [scopes, GateConfigBundle.scopeKey, h]⟩
  · exact ⟨b.loopId, none, by simp [scopes, GateConfigBundle.scopeKey, h]⟩

theorem accepted_of_sameSelection (howned : Owned topic)
    (hfull : after jobName hmacKey topic.values = .ok (replay jobName hmacKey topic.records))
    (hpart : after jobName hmacKey topic.compacted.values =
      .ok (replay jobName hmacKey topic.compacted.records))
    (h : SameSelection (replay jobName hmacKey topic.records)
      (replay jobName hmacKey topic.compacted.records)) :
    accepted jobName hmacKey [] topic.records = [] := by
  by_contra hne
  obtain ⟨r, hr⟩ := List.exists_mem_of_ne_nil _ hne
  obtain ⟨p, hp, hprepares, hhash⟩ := (prepares_of_mem_accepted hr).resolve_left (by simp)
  have hkind := scopeKind_of_validate hprepares.2.2
  rw [(howned p hp r (accepted_sublist.subset hr) hhash).2] at hkind
  obtain ⟨loopId, gateProfileId, hscope⟩ := exists_scopes hkind
  -- the scope of the record remembers the last record that was applied there
  obtain ⟨last, hlast⟩ : ∃ last, last ∈ remembered jobName hmacKey topic r.bundle.scopeKey := by
    have hmem : r ∈ ((accepted jobName hmacKey [] topic.records).filter
        (·.bundle.scopeKey = r.bundle.scopeKey)).reverse := by
      rw [List.mem_reverse, List.mem_filter]
      exact ⟨hr, by simp⟩
    simp only [remembered]
    generalize hl : ((accepted jobName hmacKey [] topic.records).filter
      (·.bundle.scopeKey = r.bundle.scopeKey)).reverse = l at hmem
    cases l with
    | nil => cases hmem
    | cons last older => exact ⟨last, Recency.mem_recent_head⟩
  have hsame := h r.bundle.site loopId gateProfileId last.bundle.effectiveFromMs
  rw [selectedHash_replay topic hfull, selectedHash_replay topic.compacted hpart] at hsame
  simp only [Except.ok.injEq] at hsame
  refine decidingHash_replay_ne_none hscope hlast (le_refl _) ?_
  rw [← hsame, decidingHash_eq_none_iff]
  simp [remembered, accepted_compacted howned]

theorem recoverable_of_accepted (h : accepted jobName hmacKey [] topic.records = []) :
    Recoverable jobName hmacKey topic := by
  intro scope r hr
  simp [remembered, h] at hr

private def activatedTopic (prepare apply : Json)
    (hprepare : (cycles "PREPARE" 100).message "service-key" = .ok prepare)
    (happly : (cycles "APPLY" 100).message "service-key" = .ok apply) :
    ControlTopic "service-key" :=
  ⟨[⟨0, cycles "PREPARE" 100, prepare, hprepare⟩, ⟨1, cycles "APPLY" 100, apply, happly⟩], by simp⟩

private theorem reads_activatedTopic {prepare apply : Json}
    (hprepare : (cycles "PREPARE" 100).message "service-key" = .ok prepare)
    (happly : (cycles "APPLY" 100).message "service-key" = .ok apply) :
    ∃ s, after "cplm-gates" (some "service-key")
      (activatedTopic prepare apply hprepare happly).values = .ok s := by
  have h₁ := after_step (show after "cplm-gates" (some "service-key") [] = .ok .empty from rfl)
    (handle_prepare_message (by decide) (canonical_cycles _ 100) rfl (valid_cycles _ _))
  have h₂ := after_step h₁
    (handle_apply_message (by decide) (canonical_cycles _ 100) rfl (by decide))
  rw [hprepare, happly] at h₂
  exact ⟨_, h₂⟩

end Recovery

end OpenBridge.GateConfig
