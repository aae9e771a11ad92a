import OpenBridge.GateConfig.EffectiveBundleSelector
import OpenBridge.Foundation.EffectiveDating

/-!
# Gate configuration: reachable states and what a selection depends on

What one control message can do to the broadcast state, the invariant of every state a worker
reaches, and the selection in terms of the active lists alone.
-/

namespace OpenBridge.GateConfig

open OpenBridge.Foundation

namespace BundleBroadcastHandler

variable {jobName : String} {hmacKey : Option String} {s s' : ActiveConfigState} {root : Json}
  {acks : List ConfigAck}

/-- The state after a sequence of control messages; an error is an exception on the way. -/
def after (jobName : String) (hmacKey : Option String) (messages : List (Except String Json)) :
    Except String ActiveConfigState :=
  messages.foldlM (fun s m => (handle jobName hmacKey m s).map Prod.fst) ActiveConfigState.empty

/-- The bundle and the next state, when the message is an `APPLY` that the handler accepts. -/
def applied (jobName : String) (hmacKey : Option String) (root : Json) (s : ActiveConfigState) :
    Option (GateConfigBundle × ActiveConfigState) :=
  match handle jobName hmacKey (.ok root) s, GateConfigBundle.parse root with
  | .ok (s', [ack]), .ok b =>
      if ack.phase = "APPLY" ∧ ack.reason = none then some (b, s') else none
  | _, _ => none

/-- The effect of one message on the state. -/
inductive Effect (jobName : String) (root : Json) (s : ActiveConfigState) :
    ActiveConfigState → List ConfigAck → Prop where
  | rest (acks : List ConfigAck) (h : ∀ a ∈ acks, a.reason ≠ none) : Effect jobName root s s acks
  | prepare (b : GateConfigBundle) (doc : Json) (hb : GateConfigBundle.parse root = .ok b)
      (hvalid : b.validate jobName = .ok []) (hdoc : root.get "bundle" = some doc)
      (hphase : (root.get "phase").asText "PREPARE" = "PREPARE") :
      Effect jobName root s { s with prepared := s.prepared.set b.hash doc }
        [⟨(root.get "deployment_id").asText "", (root.get "bundle_id").asText "", "PREPARE", b.hash,
          none⟩]
  | apply (b : GateConfigBundle) (hb : GateConfigBundle.parse root = .ok b)
      (hprepared : s.prepared.contains b.hash = true)
      (hphase : (root.get "phase").asText "PREPARE" = "APPLY") :
      Effect jobName root s (applyBundle s b ((root.get "deployment_id").asText ""))
        [⟨(root.get "deployment_id").asText "", (root.get "bundle_id").asText "", "APPLY", b.hash,
          none⟩]

theorem handle_effect (h : handle jobName hmacKey (.ok root) s = .ok (s', acks)) :
    Effect jobName root s s' acks := by
  simp only [handle] at h
  split at h
  · simp only [Except.ok.injEq, Prod.mk.injEq] at h
    obtain ⟨rfl, rfl⟩ := h
    exact Effect.rest [] (by simp)
  · split at h
    · simp only [Except.ok.injEq, Prod.mk.injEq] at h
      obtain ⟨rfl, rfl⟩ := h
      exact Effect.rest _ (by simp)
    · rename_i b hb
      cases hv : verify root hmacKey with
      | error e => simp [hv, bind, Except.bind] at h
      | ok unsigned =>
        cases unsigned with
        | some reason =>
          simp only [hv, bind, Except.bind, Except.ok.injEq, Prod.mk.injEq] at h
          obtain ⟨rfl, rfl⟩ := h
          exact Effect.rest _ (by simp)
        | none =>
          simp only [hv, bind, Except.bind] at h
          split at h
          · rename_i hphase
            cases hr : b.validate jobName with
            | error e => simp [hr] at h
            | ok reasons =>
              simp only [hr] at h
              split at h
              · simp only [Except.ok.injEq, Prod.mk.injEq] at h
                obtain ⟨rfl, rfl⟩ := h
                exact Effect.rest _ (by simp)
              · rename_i hreasons
                obtain rfl : reasons = [] := by simpa using hreasons
                split at h
                · cases h
                · rename_i doc hdoc
                  simp only [Except.ok.injEq, Prod.mk.injEq] at h
                  obtain ⟨rfl, rfl⟩ := h
                  rw [hphase]
                  exact Effect.prepare b doc hb hr hdoc hphase
          · split at h
            · rename_i hphase
              split at h
              · rename_i hprepared
                simp only [Except.ok.injEq, Prod.mk.injEq] at h
                obtain ⟨rfl, rfl⟩ := h
                rw [hphase]
                exact Effect.apply b hb hprepared hphase
              · simp only [Except.ok.injEq, Prod.mk.injEq] at h
                obtain ⟨rfl, rfl⟩ := h
                exact Effect.rest _ (by simp)
            · simp only [Except.ok.injEq, Prod.mk.injEq] at h
              obtain ⟨rfl, rfl⟩ := h
              exact Effect.rest _ (by simp)

theorem handle_prepare {b : GateConfigBundle} {doc : Json} (hrecord : isBundleRecord root = true)
    (hb : GateConfigBundle.parse root = .ok b) (hv : verify root hmacKey = .ok none)
    (hphase : (root.get "phase").asText "PREPARE" = "PREPARE")
    (hvalid : b.validate jobName = .ok []) (hdoc : root.get "bundle" = some doc) :
    handle jobName hmacKey (.ok root) s =
      .ok ({ s with prepared := s.prepared.set b.hash doc },
        [⟨(root.get "deployment_id").asText "", (root.get "bundle_id").asText "", "PREPARE", b.hash,
          none⟩]) := by
  simp [handle, hrecord, hb, hv, hphase, hvalid, hdoc, bind, Except.bind]

theorem handle_apply {b : GateConfigBundle} (hrecord : isBundleRecord root = true)
    (hb : GateConfigBundle.parse root = .ok b) (hv : verify root hmacKey = .ok none)
    (hphase : (root.get "phase").asText "PREPARE" = "APPLY")
    (hprepared : s.prepared.contains b.hash = true) :
    handle jobName hmacKey (.ok root) s =
      .ok (applyBundle s b ((root.get "deployment_id").asText ""),
        [⟨(root.get "deployment_id").asText "", (root.get "bundle_id").asText "", "APPLY", b.hash,
          none⟩]) := by
  simp [handle, hrecord, hb, hv, hphase, hprepared, bind, Except.bind]

theorem applied_cases {b : GateConfigBundle} (h : applied jobName hmacKey root s = some (b, s')) :
    s.prepared.contains b.hash = true ∧
      s' = applyBundle s b ((root.get "deployment_id").asText "") := by
  simp only [applied] at h
  split at h
  · rename_i s₁ ack b₁ hh hb
    split at h
    · rename_i hack
      simp only [Option.some.injEq, Prod.mk.injEq] at h
      obtain ⟨rfl, rfl⟩ := h
      generalize hacks : [ack] = acks at hh
      cases handle_effect hh with
      | rest _ hne =>
        subst hacks
        exact absurd hack.2 (hne ack (by simp))
      | prepare =>
        simp only [List.cons.injEq, and_true] at hacks
        rw [hacks] at hack
        exact absurd hack.1 (by simp)
      | apply b₂ hb₂ hprepared =>
        rw [hb] at hb₂
        simp only [Except.ok.injEq] at hb₂
        subst hb₂
        exact ⟨hprepared, rfl⟩
    · cases h
  · cases h

def kept (list : List ActiveEntry) (hash : String) : List ActiveEntry :=
  let others := list.filter fun e => e.hash ≠ hash
  others.drop (others.length + 1 - activeHistory)

theorem activate_eq (list : List ActiveEntry) (entry : ActiveEntry) :
    activate list entry = kept list entry.hash ++ [entry] := by
  simp only [activate, kept, List.length_append, List.length_singleton]
  rw [List.drop_append_of_le_length]
  simp only [activeHistory]
  omega

theorem kept_sublist (list : List ActiveEntry) (hash : String) : (kept list hash).Sublist list :=
  (List.drop_sublist _ _).trans List.filter_sublist

theorem hash_ne_of_mem_kept {list : List ActiveEntry} {hash : String} {e : ActiveEntry}
    (h : e ∈ kept list hash) : e.hash ≠ hash := by
  have := List.mem_of_mem_drop h
  simpa using (List.mem_filter.mp this).2

theorem entries_applyBundle (s : ActiveConfigState) (b : GateConfigBundle) (deploymentId : String)
    (scope : String) : (applyBundle s b deploymentId).entries scope =
      if scope = b.scopeKey then
        kept (s.entries scope) b.hash ++ [⟨b.hash, b.bundleId, b.effectiveFromMs,
          nextEpoch s.epoch b.changeClass, b.changeClass, deploymentId⟩]
      else s.entries scope := by
  simp only [ActiveConfigState.entries, applyBundle, Dict.get?_set, activate_eq]
  split
  · rename_i h
    simp [h]
  · rfl

/-! ## The invariant of reachable states -/

/-- Every active hash is prepared, and no hash is active twice in a scope. -/
structure Sound (s : ActiveConfigState) : Prop where
  prepared : ∀ scope, ∀ e ∈ s.entries scope, s.prepared.contains e.hash = true
  distinct : ∀ scope, ((s.entries scope).map ActiveEntry.hash).Nodup

theorem sound_empty : Sound ActiveConfigState.empty :=
  ⟨fun _ e he => absurd he (by simp [ActiveConfigState.entries, ActiveConfigState.empty]),
    fun _ => by simp [ActiveConfigState.entries, ActiveConfigState.empty]⟩

theorem Effect.sound (h : Effect jobName root s s' acks) (hs : Sound s) : Sound s' := by
  cases h with
  | rest => exact hs
  | prepare b doc =>
    refine ⟨fun scope e he => ?_, hs.distinct⟩
    have := hs.prepared scope e he
    simp only [Dict.contains, Dict.get?_set] at this ⊢
    split
    · rfl
    · exact this
  | apply b _ hprepared =>
    refine ⟨fun scope e he => ?_, fun scope => ?_⟩
    · rw [entries_applyBundle] at he
      split at he
      · rcases List.mem_append.mp he with he | he
        · exact hs.prepared scope e ((kept_sublist _ _).subset he)
        · obtain rfl := List.mem_singleton.mp he
          exact hprepared
      · exact hs.prepared scope e he
    · rw [entries_applyBundle]
      split
      · rw [List.map_append, List.nodup_append]
        refine ⟨(hs.distinct scope).sublist ((kept_sublist _ _).map _), by simp, ?_⟩
        rintro _ hx _ hy rfl
        obtain ⟨e, he, heq⟩ := List.mem_map.mp hx
        refine hash_ne_of_mem_kept he ?_
        simpa [heq] using hy
      · exact hs.distinct scope

theorem handle_sound {json : Except String Json} (h : handle jobName hmacKey json s = .ok (s', acks))
    (hs : Sound s) : Sound s' := by
  cases json with
  | error e =>
    simp only [handle, Except.ok.injEq, Prod.mk.injEq] at h
    exact h.1 ▸ hs
  | ok root => exact (handle_effect h).sound hs

theorem after_concat {messages : List (Except String Json)} {m : Except String Json} :
    after jobName hmacKey (messages ++ [m]) =
      (after jobName hmacKey messages).bind fun s => (handle jobName hmacKey m s).map Prod.fst := by
  simp only [after, List.foldlM_append, List.foldlM_cons, List.foldlM_nil]
  cases (messages.foldlM (fun s m => (handle jobName hmacKey m s).map Prod.fst)
    ActiveConfigState.empty) with
  | error e => rfl
  | ok s₁ =>
    simp only [bind, Except.bind]
    cases (handle jobName hmacKey m s₁).map Prod.fst <;> rfl

theorem after_step {messages : List (Except String Json)} {m : Except String Json}
    (h : after jobName hmacKey messages = .ok s) (hm : handle jobName hmacKey m s = .ok (s', acks)) :
    after jobName hmacKey (messages ++ [m]) = .ok s' := by
  simp only [after_concat, h, Except.bind, hm, Except.map]

theorem sound_after {messages : List (Except String Json)}
    (h : after jobName hmacKey messages = .ok s) : Sound s := by
  induction messages using List.reverseRecOn generalizing s with
  | nil =>
    simp only [after, List.foldlM_nil, pure, Except.pure, Except.ok.injEq] at h
    exact h ▸ sound_empty
  | append_singleton messages m ih =>
    rw [after_concat] at h
    cases hpre : after jobName hmacKey messages with
    | error e => simp [hpre, Except.bind] at h
    | ok s₁ =>
      simp only [hpre, Except.bind] at h
      cases hm : handle jobName hmacKey m s₁ with
      | error e => simp [hm, Except.map] at h
      | ok next =>
        simp only [hm, Except.map, Except.ok.injEq] at h
        subst h
        exact handle_sound hm (ih hpre)

end BundleBroadcastHandler

/-! ## What a selection depends on -/

namespace EffectiveBundleSelector

variable {s : ActiveConfigState} {t : ℤ}

theorem governing_eq (entries : List ActiveEntry) (t : ℤ) :
    governing entries t = EffectiveDating.latest ActiveEntry.effectiveFromMs t entries := rfl

theorem nextEffective_eq (entries : List ActiveEntry) (t bound : ℤ) :
    nextEffective entries t bound =
      EffectiveDating.next ActiveEntry.effectiveFromMs t entries bound := rfl

def stored (s : ActiveConfigState) (hash : String) : Except String (Option GateConfigBundle) :=
  match s.prepared.get? hash with
  | none => .ok none
  | some doc => (GateConfigBundle.parse doc).map some

def Coherent (s : ActiveConfigState) (parsed : ParsedBundles) : Prop :=
  ∀ hash b, parsed.get? hash = some b → stored s hash = .ok (some b)

theorem coherent_empty : Coherent s Dict.empty := by
  intro hash b h
  simp at h

def choice (s : ActiveConfigState) (t : ℤ) : List String → Except String (Option Selected)
  | [] => .ok none
  | scope :: rest =>
      match governing (s.entries scope) t with
      | none => choice s t rest
      | some e =>
          match stored s e.hash with
          | .error err => .error err
          | .ok none => choice s t rest
          | .ok (some b) => .ok (some (selectedOf b e))

theorem choice_cases {l : List String} {x : Selected} (h : choice s t l = .ok (some x)) :
    ∃ scope e c, governing (s.entries scope) t = some e ∧ stored s e.hash = .ok (some c) ∧
      x = selectedOf c e := by
  induction l with
  | nil => simp [choice] at h
  | cons scope rest ih =>
    simp only [choice] at h
    split at h
    · exact ih h
    · rename_i e he
      split at h
      · cases h
      · exact ih h
      · rename_i c hc
        simp only [Except.ok.injEq, Option.some.injEq] at h
        exact ⟨scope, e, c, he, hc, h.symm⟩

def validUntil (s : ActiveConfigState) (t : ℤ) (scopes : List String) (bound : ℤ) : ℤ :=
  scopes.foldl (fun v scope => nextEffective (s.entries scope) t v) bound

theorem content_fst {parsed : ParsedBundles} (h : Coherent s parsed) (hash : String) :
    (content s hash parsed).map Prod.fst = stored s hash := by
  simp only [content]
  cases hp : parsed.get? hash with
  | some b => exact (h hash b hp).symm
  | none =>
    simp only [stored]
    cases s.prepared.get? hash with
    | none => rfl
    | some doc => cases hb : GateConfigBundle.parse doc <;> simp [hb, bind, Except.bind, Except.map]

theorem content_coherent {parsed : ParsedBundles} (h : Coherent s parsed) {hash : String}
    {r : Option GateConfigBundle × ParsedBundles} (hr : content s hash parsed = .ok r) :
    Coherent s r.2 := by
  have hfst := content_fst h hash
  simp only [content] at hr
  cases hp : parsed.get? hash with
  | some b =>
    simp only [hp, Except.ok.injEq] at hr
    exact hr ▸ h
  | none =>
    simp only [hp] at hr
    cases hd : s.prepared.get? hash with
    | none =>
      simp only [hd, Except.ok.injEq] at hr
      exact hr ▸ h
    | some doc =>
      simp only [hd] at hr
      cases hb : GateConfigBundle.parse doc with
      | error e => simp [hb, bind, Except.bind] at hr
      | ok b =>
        simp only [hb, bind, Except.bind, Except.ok.injEq] at hr
        subst hr
        intro hash' b' h'
        rw [Dict.get?_set] at h'
        split at h'
        · rename_i heq
          obtain rfl : b = b' := Option.some.inj h'
          simp [heq, stored, hd, hb, Except.map]
        · exact h hash' b' h'

theorem walk_chosen (scopes : List String) (bound : ℤ) (c : Selected) (parsed : ParsedBundles) :
    walk s t scopes (bound, some c, parsed) =
      .ok (validUntil s t scopes bound, some c, parsed) := by
  induction scopes generalizing bound with
  | nil => rfl
  | cons scope rest ih =>
    simp only [walk, validUntil, List.foldl_cons, ActiveConfigState.entries]
    cases s.active.get? scope with
    | none => exact ih bound
    | some entries =>
      simp only [Option.getD_some]
      cases governing entries t <;> exact ih _

theorem walk_spec (scopes : List String) (bound : ℤ) {parsed : ParsedBundles}
    (h : Coherent s parsed) :
    (walk s t scopes (bound, none, parsed)).map (fun r => (r.1, r.2.1)) =
        (choice s t scopes).map (fun c => (validUntil s t scopes bound, c)) ∧
      ∀ r, walk s t scopes (bound, none, parsed) = .ok r → Coherent s r.2.2 := by
  induction scopes generalizing bound parsed with
  | nil =>
    refine ⟨rfl, fun r hr => ?_⟩
    simp only [walk, Except.ok.injEq] at hr
    exact hr ▸ h
  | cons scope rest ih =>
    simp only [walk, choice, validUntil, List.foldl_cons, ActiveConfigState.entries]
    cases s.active.get? scope with
    | none => exact ih bound h
    | some entries =>
      simp only [Option.getD_some]
      cases hg : governing entries t with
      | none => exact ih _ h
      | some e =>
        have hfst := content_fst h e.hash
        cases hc : content s e.hash parsed with
        | error err =>
          rw [hc] at hfst
          simp [← hfst, hc, bind, Except.bind, Except.map]
        | ok r =>
          obtain ⟨b, parsed'⟩ := r
          have hcoh := content_coherent h hc
          rw [hc] at hfst
          simp only [← hfst, hc, bind, Except.bind, Except.map]
          cases b with
          | none => exact ih _ hcoh
          | some b =>
            simp only [Option.map_some, walk_chosen, validUntil]
            refine ⟨rfl, fun r hr => ?_⟩
            simp only [Except.ok.injEq] at hr
            exact hr ▸ hcoh

def ofChoice (validUntil : ℤ) : Option Selected → Selected
  | none => ⟨none, 0, 0, none, validUntil⟩
  | some c => { c with validUntilMs := validUntil }

theorem select_spec (site : String) (loopId gateProfileId : Option String)
    {parsed : ParsedBundles} (h : Coherent s parsed) :
    (select s site loopId gateProfileId t parsed).map Prod.fst =
        (choice s t (scopes site loopId gateProfileId)).map
          (ofChoice (validUntil s t (scopes site loopId gateProfileId) forever)) ∧
      ∀ r, select s site loopId gateProfileId t parsed = .ok r → Coherent s r.2 := by
  obtain ⟨hw, hcoh⟩ := walk_spec (scopes site loopId gateProfileId) forever h
  simp only [select]
  cases hr : walk s t (scopes site loopId gateProfileId) (forever, none, parsed) with
  | error e =>
    rw [hr] at hw
    cases hc : choice s t (scopes site loopId gateProfileId) with
    | error e' =>
      rw [hc] at hw
      simp only [Except.map, Except.error.injEq] at hw
      simp [bind, Except.bind, Except.map, hw]
    | ok c => simp [hc, Except.map] at hw
  | ok r =>
    obtain ⟨bound, chosen, parsed'⟩ := r
    rw [hr] at hw
    cases hc : choice s t (scopes site loopId gateProfileId) with
    | error e' => simp [hc, Except.map] at hw
    | ok c =>
      rw [hc] at hw
      simp only [Except.map, Except.ok.injEq, Prod.mk.injEq] at hw
      obtain ⟨rfl, rfl⟩ := hw
      simp only [bind, Except.bind, Except.map]
      refine ⟨by cases chosen <;> rfl, fun r hr' => ?_⟩
      have hp : r.2 = parsed' := by
        cases chosen <;> simp only [Except.ok.injEq] at hr' <;> exact hr' ▸ rfl
      exact hp ▸ hcoh _ hr

theorem select_of_error {site : String} {loopId gateProfileId : Option String}
    {parsed : ParsedBundles} {e : String} (h : Coherent s parsed)
    (hc : choice s t (scopes site loopId gateProfileId) = .error e) :
    select s site loopId gateProfileId t parsed = .error e := by
  obtain ⟨hsel, -⟩ := @select_spec s t site loopId gateProfileId parsed h
  cases hs : select s site loopId gateProfileId t parsed with
  | error e' => simpa [hs, hc, Except.map] using hsel
  | ok r => simp [hs, hc, Except.map] at hsel

theorem select_of_ok {site : String} {loopId gateProfileId : Option String}
    {parsed : ParsedBundles} {c : Option Selected} (h : Coherent s parsed)
    (hc : choice s t (scopes site loopId gateProfileId) = .ok c) :
    ∃ parsed', select s site loopId gateProfileId t parsed =
      .ok (ofChoice (validUntil s t (scopes site loopId gateProfileId) forever) c, parsed') ∧
        Coherent s parsed' := by
  obtain ⟨hsel, hcoh⟩ := @select_spec s t site loopId gateProfileId parsed h
  cases hs : select s site loopId gateProfileId t parsed with
  | error e => simp [hs, hc, Except.map] at hsel
  | ok r =>
    simp only [hs, hc, Except.map, Except.ok.injEq] at hsel
    exact ⟨r.2, by rw [← hsel], hcoh r hs⟩

theorem select_governs (site : String) (loopId gateProfileId : Option String) :
    (select s site loopId gateProfileId t Dict.empty).map (·.1.governs) =
      (choice s t (scopes site loopId gateProfileId)).map fun c => (ofChoice 0 c).governs := by
  obtain ⟨hsel, -⟩ := @select_spec s t site loopId gateProfileId Dict.empty coherent_empty
  have hgoverns : (select s site loopId gateProfileId t Dict.empty).map (·.1.governs) =
      ((select s site loopId gateProfileId t Dict.empty).map Prod.fst).map Selected.governs := by
    cases select s site loopId gateProfileId t Dict.empty <;> rfl
  rw [hgoverns, hsel]
  cases choice s t (scopes site loopId gateProfileId) with
  | error e => rfl
  | ok c => cases c <;> rfl

end EffectiveBundleSelector

end OpenBridge.GateConfig
