import OpenBridge.Gateway.ResponseCacheMiddleware

/-!
# Gateway: a caller's own writes in the response cache

The sweep of a write leaves no older entry of its class behind, but a `GET` that was forwarded
before the write can store its body after the sweep has passed.  Where no body of the caller is
stored out of order so, and the sweeps of its writes go through, every hit shows the writes whose
answers the caller had.
-/

namespace OpenBridge.Gateway

open OpenBridge.Foundation

namespace ResponseCache

variable {scope : String} {s : ResponseCache}

/-- A step that keeps the caller's order: no body is stored that was computed before a write of the
caller whose sweep has begun; a write of the caller that took effect is answered as a success, and
its sweep deletes the caller's entries. -/
def InOrder (scope : String) (s : ResponseCache) : CacheEvent → Prop
  | .stored get reached =>
      match get.phase with
      | .computed response computedAt =>
          get ∈ s.gets → get.key.scope = scope → response.statusCode = 200 → response.body ≠ "" →
            reached = true → s.begun scope get.key.className ≤ computedAt
      | _ => True
  | .answered mutation statusCode =>
      mutation ∈ s.mutations → mutation.scope = scope → mutation.effect ≠ none → statusCode < 400
  | .deleted mutation key reached =>
      mutation ∈ s.mutations → mutation.scope = scope → mutation.effect ≠ none →
        key.scope = scope → reached = true
  | .sweepFailed mutation =>
      match mutation.sweeping with
      | some keys =>
          mutation ∈ s.mutations → mutation.scope = scope → mutation.effect ≠ none →
            ∀ key ∈ keys, key.scope ≠ scope
      | none => True
  | _ => True

instance decidableInOrder (scope : String) (s : ResponseCache) :
    ∀ e, Decidable (InOrder scope s e)
  | .stored ⟨key, since, .computed response computedAt⟩ reached =>
      inferInstanceAs (Decidable (⟨key, since, .computed response computedAt⟩ ∈ s.gets →
        key.scope = scope → response.statusCode = 200 → response.body ≠ "" → reached = true →
          s.begun scope key.className ≤ computedAt))
  | .stored ⟨_, _, .reading⟩ _ => isTrue trivial
  | .stored ⟨_, _, .forwarded⟩ _ => isTrue trivial
  | .answered mutation statusCode =>
      inferInstanceAs (Decidable (mutation ∈ s.mutations → mutation.scope = scope →
        mutation.effect ≠ none → statusCode < 400))
  | .deleted mutation key reached =>
      inferInstanceAs (Decidable (mutation ∈ s.mutations → mutation.scope = scope →
        mutation.effect ≠ none → key.scope = scope → reached = true))
  | .sweepFailed ⟨caller, className, effect, some keys⟩ =>
      inferInstanceAs (Decidable (⟨caller, className, effect, some keys⟩ ∈ s.mutations →
        caller = scope → effect ≠ none → ∀ key ∈ keys, key.scope ≠ scope))
  | .sweepFailed ⟨_, _, _, none⟩ => isTrue trivial
  | .began _ _ => isTrue trivial
  | .read _ _ => isTrue trivial
  | .computed _ _ => isTrue trivial
  | .tookEffect _ => isTrue trivial
  | .swept _ => isTrue trivial
  | .expired _ => isTrue trivial

/-! ## The writes that are noted -/

theorem le_note (writes : String → String → ℕ) (mutation : CachedMutation) (className : String) :
    writes scope className ≤ note writes mutation scope className := by
  unfold note
  split
  · exact le_max_left _ _
  · exact le_rfl

theorem effect_le_note (writes : String → String → ℕ) (mutation : CachedMutation) :
    mutation.effect.getD 0 ≤ note writes mutation mutation.scope mutation.className := by
  unfold note
  rw [if_pos ⟨rfl, rfl⟩]
  exact le_max_right _ _

theorem note_le {writes : String → String → ℕ} {mutation : CachedMutation} {className : String}
    {n : ℕ} (h : writes scope className ≤ n)
    (heffect : mutation.scope = scope → mutation.className = className →
      mutation.effect.getD 0 ≤ n) : note writes mutation scope className ≤ n := by
  unfold note
  split
  · rename_i hnoted
    exact max_le h (heffect hnoted.1.symm hnoted.2.symm)
  · exact h

/-! ## What every step keeps -/

/-- The entries of a caller show the writes that were answered; those that a sweep under way has
passed show its write as well. -/
structure Fresh (scope : String) (s : ResponseCache) : Prop where
  begun : ∀ mutation ∈ s.mutations, mutation.scope = scope → mutation.sweeping.isSome →
    mutation.effect.getD 0 ≤ s.begun scope mutation.className
  returned : ∀ className, s.returned scope className ≤ s.begun scope className
  entries : ∀ key entry, s.cache.get? key = some entry → key.scope = scope →
    s.returned scope key.className ≤ entry.computedAt
  passed : ∀ mutation ∈ s.mutations, mutation.scope = scope →
    ∀ keys, mutation.sweeping = some keys → ∀ key entry, s.cache.get? key = some entry →
      key.scope = scope → key.className = mutation.className →
        key ∈ keys ∨ mutation.effect.getD 0 ≤ entry.computedAt
  since : ∀ get ∈ s.gets, get.key.scope = scope →
    get.since ≤ s.returned scope get.key.className

theorem fresh_new : Fresh scope new where
  begun _ h := absurd h List.not_mem_nil
  returned _ := le_rfl
  entries _ _ h := by cases h
  passed _ h := absurd h List.not_mem_nil
  since _ h := absurd h List.not_mem_nil

theorem Fresh.withGets (h : Fresh scope s) {gets : List CachedGet}
    (hgets : ∀ get ∈ gets, get.key.scope = scope →
      get.since ≤ s.returned scope get.key.className) :
    Fresh scope { s with gets := gets } :=
  ⟨h.begun, h.returned, h.entries, h.passed, hgets⟩

theorem Fresh.withCache (h : Fresh scope s) {cache : Dict CacheKey CacheEntry}
    (hcache : ∀ key entry, cache.get? key = some entry → s.cache.get? key = some entry) :
    Fresh scope { s with cache := cache } :=
  ⟨h.begun, h.returned, fun key entry hkey => h.entries key entry (hcache key entry hkey),
    fun mutation hm hscope keys hkeys key entry hkey =>
      h.passed mutation hm hscope keys hkeys key entry (hcache key entry hkey), h.since⟩

theorem get?_of_erase {cache : Dict CacheKey CacheEntry} {k key : CacheKey} {entry : CacheEntry}
    (h : (cache.erase k).get? key = some entry) : key ≠ k ∧ cache.get? key = some entry := by
  rw [Dict.get?_erase] at h
  split at h
  · cases h
  · rename_i hne
    exact ⟨hne, h⟩

theorem Fresh.withMutations (h : Fresh scope s) {mutations : List CachedMutation}
    {version : String → ℕ}
    (hmutations : ∀ m ∈ mutations, m.sweeping = none ∨ m ∈ s.mutations) :
    Fresh scope { s with version := version, mutations := mutations } where
  begun m hm hscope hsome := by
    rcases hmutations m hm with hnone | hm
    · rw [hnone] at hsome
      cases hsome
    · exact h.begun m hm hscope hsome
  returned := h.returned
  entries := h.entries
  passed m hm hscope keys hkeys := by
    rcases hmutations m hm with hnone | hm
    · rw [hnone] at hkeys
      cases hkeys
    · exact h.passed m hm hscope keys hkeys
  since := h.since

theorem Fresh.finish (h : Fresh scope s) {mutation : CachedMutation}
    (hbegun : mutation.scope = scope →
      mutation.effect.getD 0 ≤ s.begun scope mutation.className)
    (hentries : mutation.scope = scope → ∀ key entry, s.cache.get? key = some entry →
      key.scope = scope → key.className = mutation.className →
      mutation.effect.getD 0 ≤ entry.computedAt) : Fresh scope (s.finish mutation) where
  begun m hm := h.begun m (List.mem_of_mem_erase hm)
  returned className := note_le (h.returned className) (by rintro hscope rfl; exact hbegun hscope)
  entries key entry hkey hscope := note_le (h.entries key entry hkey hscope) fun hm hclass =>
    hentries hm key entry hkey hscope hclass.symm
  passed m hm := h.passed m (List.mem_of_mem_erase hm)
  since get hget hscope := (h.since get hget hscope).trans (le_note _ _ _)

theorem Fresh.store (h : Fresh scope s) {key : CacheKey} {entry : CacheEntry}
    (hentry : key.scope = scope → s.begun scope key.className ≤ entry.computedAt) :
    Fresh scope { s with cache := s.cache.set key entry } where
  begun := h.begun
  returned := h.returned
  entries k e hk hscope := by
    rw [Dict.get?_set] at hk
    split at hk
    · rename_i heq
      subst heq
      obtain rfl := Option.some.inj hk
      exact (h.returned _).trans (hentry hscope)
    · exact h.entries k e hk hscope
  passed m hm hscope keys hkeys k e hk hkscope hclass := by
    rw [Dict.get?_set] at hk
    split at hk
    · rename_i heq
      subst heq
      obtain rfl := Option.some.inj hk
      have hbegun := h.begun m hm hscope (by rw [hkeys]; rfl)
      rw [← hclass] at hbegun
      exact Or.inr (hbegun.trans (hentry hkscope))
    · exact h.passed m hm hscope keys hkeys k e hk hkscope hclass
  since := h.since

theorem Fresh.beginSweep (h : Fresh scope s) (mutation : CachedMutation) :
    Fresh scope
      { s with
        mutations := { mutation with
          sweeping := some (s.cache.keys.filter fun key => key.className = mutation.className) } ::
            s.mutations.erase mutation
        begun := note s.begun mutation } where
  begun m hm hscope hsome := by
    rcases List.mem_cons.mp hm with rfl | hm
    · subst hscope
      exact effect_le_note s.begun mutation
    · exact (h.begun m (List.mem_of_mem_erase hm) hscope hsome).trans (le_note _ _ _)
  returned className := (h.returned className).trans (le_note _ _ _)
  entries := h.entries
  passed m hm hscope keys hkeys key entry hkey hkscope hclass := by
    rcases List.mem_cons.mp hm with rfl | hm
    · obtain rfl := Option.some.inj hkeys
      refine Or.inl (List.mem_filter.mpr ⟨?_, decide_eq_true hclass⟩)
      rw [Dict.mem_keys_iff_isSome, hkey]
      rfl
    · exact h.passed m (List.mem_of_mem_erase hm) hscope keys hkeys key entry hkey hkscope hclass
  since := h.since

theorem Fresh.delete (h : Fresh scope s) {mutation : CachedMutation} {keys : List CacheKey}
    (hmem : mutation ∈ s.mutations) (hkeys : mutation.sweeping = some keys) (key : CacheKey)
    {reached : Bool} (hreached : mutation.scope = scope → mutation.effect ≠ none →
      key.scope = scope → reached = true) :
    Fresh scope
      { s with
        cache := if reached then s.cache.erase key else s.cache
        mutations := { mutation with sweeping := some (keys.filter (· ≠ key)) } ::
          s.mutations.erase mutation } := by
  have hcache : ∀ k e, (if reached then s.cache.erase key else s.cache).get? k = some e →
      s.cache.get? k = some e ∧ (reached = true → k ≠ key) := by
    intro k e hk
    split at hk
    · exact ⟨(get?_of_erase hk).2, fun _ => (get?_of_erase hk).1⟩
    · rename_i hlost
      exact ⟨hk, fun h => absurd h hlost⟩
  refine ⟨?_, h.returned, fun k e hk => h.entries k e (hcache k e hk).1, ?_, h.since⟩
  · intro m hm hscope hsome
    rcases List.mem_cons.mp hm with rfl | hm
    · exact h.begun mutation hmem hscope (by rw [hkeys]; rfl)
    · exact h.begun m (List.mem_of_mem_erase hm) hscope hsome
  · intro m hm hscope keys' hkeys' k e hk hkscope hclass
    rcases List.mem_cons.mp hm with rfl | hm
    · obtain rfl := Option.some.inj hkeys'
      rcases h.passed mutation hmem hscope keys hkeys k e (hcache k e hk).1 hkscope hclass with
        hleft | hshown
      · by_cases hkey : k = key
        · subst hkey
          -- the deletion did not reach Redis, so there was no write
          cases heffect : mutation.effect with
          | none => exact Or.inr (Nat.zero_le _)
          | some w =>
            refine absurd rfl ((hcache k e hk).2 (hreached hscope ?_ hkscope))
            rw [heffect]
            exact Option.some_ne_none w
        · exact Or.inl (List.mem_filter.mpr ⟨hleft, decide_eq_true hkey⟩)
      · exact Or.inr hshown
    · exact h.passed m (List.mem_of_mem_erase hm) hscope keys' hkeys' k e (hcache k e hk).1 hkscope
        hclass

theorem effect_zero {mutation : CachedMutation} (h : mutation.effect = none) (n : ℕ) :
    mutation.effect.getD 0 ≤ n := by
  rw [h]
  exact Nat.zero_le n

theorem Fresh.step (h : Fresh scope s) (e : CacheEvent) (horder : InOrder scope s e) :
    Fresh scope (s.step e).1 := by
  have herase : ∀ get : CachedGet, Fresh scope { s with gets := s.gets.erase get } := fun get =>
    h.withGets fun g hg => h.since g (List.mem_of_mem_erase hg)
  -- a request goes on with another phase
  have hphase : ∀ (get : CachedGet) (phase : GetPhase), get ∈ s.gets →
      Fresh scope { s with gets := { get with phase := phase } :: s.gets.erase get } := by
    intro get phase hget
    refine h.withGets (List.forall_mem_cons.mpr ⟨h.since get hget, fun g hg => ?_⟩)
    exact h.since g (List.mem_of_mem_erase hg)
  unfold ResponseCache.step
  cases e with
  | began request connected =>
    dsimp only
    split
    · exact h
    · split
      · refine h.withMutations (List.forall_mem_cons.mpr ⟨Or.inl rfl, fun m hm => Or.inr hm⟩)
      · split
        · refine h.withGets (List.forall_mem_cons.mpr ⟨?_, h.since⟩)
          rintro rfl
          exact le_rfl
        · exact h
  | read get reached =>
    dsimp only
    split
    · rename_i hget
      split
      · split
        · exact herase get
        · exact hphase get _ hget.1
      · exact herase get
    · exact h
  | computed get response =>
    dsimp only
    split
    · rename_i hget
      exact hphase get _ hget.1
    · exact h
  | stored get reached =>
    dsimp only
    split
    · rename_i response computedAt hcomputed
      split
      · rename_i hget
        split
        · rename_i hstores
          refine (herase get).store fun hscope => ?_
          unfold InOrder at horder
          dsimp only at horder
          rw [hcomputed] at horder
          exact horder hget hscope hstores.1 hstores.2.1 hstores.2.2
        · exact herase get
      · exact h
    · exact h
  | tookEffect mutation =>
    dsimp only
    split
    · rename_i hmutation
      refine h.withMutations (List.forall_mem_cons.mpr ⟨Or.inl hmutation.2, fun m hm => ?_⟩)
      exact Or.inr (List.mem_of_mem_erase hm)
    · exact h
  | answered mutation statusCode =>
    dsimp only
    split
    · rename_i hmutation
      split
      · exact h.beginSweep mutation
      · rename_i hfailed
        have hnone : mutation.scope = scope → mutation.effect = none := by
          intro hscope
          by_contra heffect
          exact hfailed (horder hmutation.1 hscope heffect)
        exact h.finish (fun hscope => effect_zero (hnone hscope) _)
          fun hscope _ _ _ _ _ => effect_zero (hnone hscope) _
    · exact h
  | deleted mutation key reached =>
    dsimp only
    split
    · rename_i keys hkeys
      split
      · rename_i hmutation
        exact h.delete hmutation.1 hkeys key (horder hmutation.1)
      · exact h
    · exact h
  | swept mutation =>
    dsimp only
    split
    · rename_i hmutation
      refine h.finish (fun hscope => h.begun mutation hmutation.1 hscope ?_) ?_
      · rw [hmutation.2]
        rfl
      · intro hscope key entry hkey hkscope hclass
        rcases h.passed mutation hmutation.1 hscope [] hmutation.2 key entry hkey hkscope hclass
          with hleft | hshown
        · exact absurd hleft List.not_mem_nil
        · exact hshown
    · exact h
  | sweepFailed mutation =>
    dsimp only
    split
    · rename_i hmutation
      obtain ⟨keys, hkeys⟩ := Option.isSome_iff_exists.mp hmutation.2
      refine h.finish (fun hscope => h.begun mutation hmutation.1 hscope hmutation.2) ?_
      intro hscope key entry hkey hkscope hclass
      rcases h.passed mutation hmutation.1 hscope keys hkeys key entry hkey hkscope hclass with
        hleft | hshown
      · cases heffect : mutation.effect with
        | none => exact Nat.zero_le _
        | some w =>
          unfold InOrder at horder
          dsimp only at horder
          rw [hkeys] at horder
          refine absurd hkscope (horder hmutation.1 hscope ?_ key hleft)
          rw [heffect]
          exact Option.some_ne_none w
      · exact hshown
    · exact h
  | expired key =>
    exact h.withCache fun k e hk => (get?_of_erase hk).2

theorem exists_of_hit {e : CacheEvent} {hit : CacheHit} (h : hit ∈ (s.step e).2) :
    ∃ get ∈ s.gets, ∃ entry, s.cache.get? get.key = some entry ∧
      hit = ⟨get.key, get.since, entry⟩ := by
  unfold ResponseCache.step at h
  cases e with
  | read get reached =>
    dsimp only at h
    split at h
    · rename_i hget
      split at h
      · split at h
        · rename_i entry hentry
          exact ⟨get, hget.1, entry, hentry, List.mem_singleton.mp h⟩
        · cases h
      · cases h
    · cases h
  | _ =>
    dsimp only at h
    repeat' split at h
    all_goals cases h

theorem Fresh.hit (h : Fresh scope s) {e : CacheEvent} {hit : CacheHit} (hhit : hit ∈ (s.step e).2)
    (hscope : hit.key.scope = scope) : hit.since ≤ hit.entry.computedAt := by
  obtain ⟨get, hget, entry, hentry, rfl⟩ := exists_of_hit hhit
  exact (h.since get hget hscope).trans (h.entries get.key entry hentry hscope)

/-- In every run that keeps the caller's order, each of the caller's hits shows the writes whose
answers the caller had when the request began. -/
theorem hit_shows_own_writes (scope : String) (events : List CacheEvent)
    (h : Machine.Always step (InOrder scope) new events) :
    ∀ hit ∈ Machine.outputs step new events, hit.key.scope = scope →
      hit.since ≤ hit.entry.computedAt :=
  Machine.outputs_of_always step (Fresh scope) (fun _ e hfresh horder => hfresh.step e horder)
    (fun _ _ hfresh _ _ hhit => hfresh.hit hhit) fresh_new h

def displayRead : CacheRequest := ⟨"GET", "/api/displays/7", "", some "alice", ["displays.read"]⟩

def displayWrite : CacheRequest := { displayRead with method := "PUT" }

def displayKey : CacheKey := buildKey displayRead ⟨"displays", "/api/displays"⟩

def displayResponse : UpstreamResponse := ⟨200, some "application/json", "{}"⟩

def forwardedRead : List CacheEvent :=
  [.began displayRead true, .read ⟨displayKey, 0, .reading⟩ true,
    .computed ⟨displayKey, 0, .forwarded⟩ displayResponse]

def storedRead : List CacheEvent :=
  [.stored ⟨displayKey, 0, .computed displayResponse 0⟩ true]

def sweptWrite (keys : List CacheKey) : List CacheEvent :=
  [.began displayWrite true, .tookEffect ⟨displayKey.scope, "displays", none, none⟩,
    .answered ⟨displayKey.scope, "displays", some 1, none⟩ 204] ++
  keys.map (fun key => .deleted ⟨displayKey.scope, "displays", some 1, some keys⟩ key true) ++
  [.swept ⟨displayKey.scope, "displays", some 1, some []⟩]

def laterRead : List CacheEvent := [.began displayRead true, .read ⟨displayKey, 1, .reading⟩ true]

def refreshedRead : List CacheEvent :=
  laterRead ++ [.computed ⟨displayKey, 1, .forwarded⟩ displayResponse,
    .stored ⟨displayKey, 1, .computed displayResponse 1⟩ true]

/-- A hit after the write shows it. -/
theorem hit_shows_own_writes_display :
    ∃ hit ∈ Machine.outputs step new
        (forwardedRead ++ storedRead ++ sweptWrite [displayKey] ++ refreshedRead ++ laterRead),
      hit.key.scope = displayKey.scope ∧ hit.since ≤ hit.entry.computedAt := by
  have hhit : ∃ hit ∈ Machine.outputs step new
      (forwardedRead ++ storedRead ++ sweptWrite [displayKey] ++ refreshedRead ++ laterRead),
      hit.key.scope = displayKey.scope := by
    decide +kernel
  obtain ⟨hit, hmem, hscope⟩ := hhit
  exact ⟨hit, hmem, hscope,
    hit_shows_own_writes displayKey.scope _ (by decide +kernel) hit hmem hscope⟩

/-- The response is stored after the sweep: the later read is answered with it. -/
theorem hit_before_own_write :
    ¬ ∀ hit ∈ Machine.outputs step new
        (forwardedRead ++ sweptWrite [] ++ storedRead ++ laterRead),
      hit.key.scope = displayKey.scope → hit.since ≤ hit.entry.computedAt := by
  decide +kernel

end ResponseCache

end OpenBridge.Gateway
