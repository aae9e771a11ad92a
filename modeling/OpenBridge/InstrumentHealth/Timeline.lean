import OpenBridge.Foundation.Machine
import OpenBridge.InstrumentHealth.DeviceStateMachine

/-!
# Instrument health: the timeline of a device

The transitions of one machine describe a contiguous timeline whose intervals have keys of their own
exactly when every cut falls strictly after the start of the open interval.
-/

namespace OpenBridge.InstrumentHealth

open OpenBridge.Foundation

namespace DeviceStateMachine

/-- Where a list of transitions stands: before the first interval, within the interval last opened,
or at the end of one that was closed. -/
inductive Position where
  | start
  | within (i : HealthInterval)
  | after (toMs : ℤ)
  deriving DecidableEq

def Position.next (p : Position) (t : Transition) : Position :=
  match t.kind with
  | .revision => p
  | .open => .within t.interval
  | .close => .after (t.interval.toMs.getD 0)

/-- A `CLOSE` closes the interval last opened, not before its start; the next `OPEN` starts where it
ends. -/
def Position.Fits (p : Position) (t : Transition) : Prop :=
  match t.kind, p with
  | .revision, _ => True
  | .open, .start => True
  | .open, .after toMs => t.interval.fromMs = toMs
  | .open, .within _ => False
  | .close, .within c => t.interval.contextKey = c.contextKey ∧
      ∃ toMs, t.interval.toMs = some toMs ∧ t.interval.fromMs ≤ toMs
  | .close, _ => False

def position (ts : List Transition) : Position := ts.foldl Position.next .start

def Contiguous (ts : List Transition) : Prop :=
  ∀ pre t post, ts = pre ++ t :: post → (position pre).Fits t

def DistinctKeys (ts : List Transition) : Prop :=
  ((ts.filter (·.kind ≠ .close)).map (·.interval.contextKey)).Nodup

def Timeline (ts : List Transition) : Prop := Contiguous ts ∧ DistinctKeys ts

def corrections (ts : List Transition) : ℕ := (ts.filter (·.kind = .revision)).length

/-- A step that cuts the open interval does so strictly after its start. -/
def StrictCut (m : DeviceStateMachine) : Input → Prop
  | .observation o nowMs => ∀ m₁ c, o.isAvailability = false → m.ordered o = some m₁ →
      m.current = some c → isLateCorrection c o = false →
        sameState c (m₁.nextInterval c o nowMs) = false → c.fromMs < supportedFromMs o nowMs
  | .timer nowMs => ∀ c, m.current = some c → m.isExpired c nowMs = true → c.fromMs < m.expiryMs c
  | .offline atMs => ∀ c, m.current = some c → c.collectionState ≠ "OFFLINE" → c.fromMs < atMs

def Input.isOf (device : String) : Input → Prop
  | .observation o _ => o.deviceKey = device
  | _ => True

/-! ## Lists of transitions -/

variable {ts : List Transition} {t : Transition}

theorem position_append (ts ts' : List Transition) :
    position (ts ++ ts') = ts'.foldl Position.next (position ts) := by
  rw [position, List.foldl_append, position]

theorem contiguous_concat : Contiguous (ts ++ [t]) ↔ Contiguous ts ∧ (position ts).Fits t := by
  constructor
  · intro h
    refine ⟨fun pre t' post heq => h pre t' (post ++ [t]) (by simp [heq]), h ts t [] rfl⟩
  · rintro ⟨h, hlast⟩ pre t' post heq
    rcases List.eq_nil_or_concat post with rfl | ⟨post', last, rfl⟩
    · obtain ⟨rfl, heq⟩ := List.append_inj' heq rfl
      obtain rfl : t = t' := by simpa using heq
      exact hlast
    · have hsplit : ts ++ [t] = (pre ++ t' :: post') ++ [last] := by simpa using heq
      obtain ⟨rfl, -⟩ := List.append_inj' hsplit rfl
      exact h pre t' post' rfl

theorem timeline_of_append {ts' : List Transition} (h : Timeline (ts ++ ts')) : Timeline ts := by
  refine ⟨fun pre t post heq => h.1 pre t (post ++ ts') (by simp [heq]), ?_⟩
  have hkeys := h.2
  rw [DistinctKeys, List.filter_append, List.map_append] at hkeys
  exact (List.nodup_append.mp hkeys).1

theorem distinctKeys_concat : DistinctKeys (ts ++ [t]) ↔ DistinctKeys ts ∧
    (t.kind ≠ .close → ∀ t' ∈ ts, t'.kind ≠ .close →
      t'.interval.contextKey ≠ t.interval.contextKey) := by
  rw [DistinctKeys, List.filter_append, List.map_append, List.nodup_append]
  by_cases hclose : t.kind = .close
  · simp [hclose, DistinctKeys]
  · have hkeep : [t].filter (·.kind ≠ .close) = [t] := by simp [hclose]
    rw [hkeep]
    constructor
    · rintro ⟨h, -, hne⟩
      refine ⟨h, fun _ t' ht' hkind => hne _ ?_ _ (by simp)⟩
      exact List.mem_map_of_mem (List.mem_filter.mpr ⟨ht', by simpa using hkind⟩)
    · rintro ⟨h, hne⟩
      refine ⟨h, by simp, fun key hkey key' hkey' heq => ?_⟩
      obtain ⟨t', ht', rfl⟩ := List.mem_map.mp hkey
      obtain ⟨hmem, hkind⟩ := List.mem_filter.mp ht'
      obtain rfl : key' = t.interval.contextKey := by simpa using hkey'
      exact hne hclose t' hmem (by simpa using hkind) heq

theorem corrections_concat : corrections (ts ++ [t]) =
    corrections ts + if t.kind = .revision then 1 else 0 := by
  rw [corrections, List.filter_append, List.length_append, corrections]
  by_cases h : t.kind = .revision <;> simp [h]

theorem corrections_le_append (ts ts' : List Transition) :
    corrections ts ≤ corrections (ts ++ ts') := by
  rw [corrections, corrections, List.filter_append, List.length_append]
  omega

theorem mem_of_position {i : HealthInterval} (h : position ts = .within i) :
    ⟨.open, i⟩ ∈ ts := by
  induction ts using List.reverseRecOn with
  | nil => cases h
  | append_singleton ts t ih =>
    obtain ⟨kind, j⟩ := t
    rw [position_append] at h
    cases kind with
    | revision => exact List.mem_append_left _ (ih h)
    | close => cases h
    | «open» =>
      simp only [List.foldl_cons, List.foldl_nil, Position.next, Position.within.injEq] at h
      simp [h]

/-! ## One step -/

section Step

variable {m m' : DeviceStateMachine} {i : Input} {device : String}

/-- The open interval of a machine is of its device, and is no revision. -/
def Owns (device : String) (m : DeviceStateMachine) : Prop :=
  ∀ c, m.current = some c → c.deviceKey = device ∧ c.revision = 1

/-- The effect of one step on the timeline. -/
inductive Effect (device : String) (m : DeviceStateMachine) (i : Input) :
    DeviceStateMachine → List Transition → Prop where
  | quiet (m' : DeviceStateMachine) (hrevisions : m'.revisions = m.revisions)
      (hcurrent : m'.current.map (·.fromMs) = m.current.map (·.fromMs)) (howns : Owns device m')
      (hstrict : StrictCut m i) : Effect device m i m' []
  | corrects (m' : DeviceStateMachine) (r : HealthInterval)
      (hrevisions : m'.revisions = wrap32 (m.revisions + 1)) (hcurrent : m'.current = m.current)
      (hrevision : r.revision = m'.revisions) (hdevice : r.deviceKey = device)
      (hstrict : StrictCut m i) : Effect device m i m' [⟨.revision, r⟩]
  | opens (m' : DeviceStateMachine) (next : HealthInterval)
      (hrevisions : m'.revisions = m.revisions) (hnone : m.current = none)
      (hcurrent : m'.current = some next) (howns : Owns device m') (hstrict : StrictCut m i) :
      Effect device m i m' [⟨.open, next⟩]
  | cuts (m' : DeviceStateMachine) (c next : HealthInterval) (kind : BoundaryKind)
      (hrevisions : m'.revisions = m.revisions) (hsome : m.current = some c)
      (hcurrent : m'.current = some next) (howns : Owns device m')
      (hstrict : StrictCut m i ↔ c.fromMs < next.fromMs) :
      Effect device m i m'
        [⟨.close, ended c (max next.fromMs c.fromMs) kind⟩, ⟨.open, next⟩]

@[simp] theorem lastKnown_fromMs (c : HealthInterval) (collection : String) (atMs : ℤ) :
    (lastKnown c collection atMs).fromMs = atMs := rfl

theorem nextInterval_fromMs (m : DeviceStateMachine) (c : HealthInterval) (o : HealthObservation)
    (nowMs : ℤ) : (m.nextInterval c o nowMs).fromMs = supportedFromMs o nowMs := by
  rw [nextInterval]
  split <;> rfl

theorem owns_nextInterval (m : DeviceStateMachine) (c : HealthInterval) {o : HealthObservation}
    (nowMs : ℤ) (h : o.deviceKey = device) :
    (m.nextInterval c o nowMs).deviceKey = device ∧ (m.nextInterval c o nowMs).revision = 1 := by
  rw [nextInterval]
  split <;> exact ⟨h, rfl⟩

theorem observation_effect {o : HealthObservation} {nowMs : ℤ} (hm : Owns device m)
    (ho : o.deviceKey = device) :
    Effect device m (.observation o nowMs) (m.apply o nowMs).1 (m.apply o nowMs).2 := by
  by_cases hav : o.isAvailability = true
  · have happly : m.apply o nowMs = (m, []) := by simp [apply, hav]
    rw [happly]
    refine Effect.quiet m rfl rfl hm fun m₁ c h => ?_
    rw [hav] at h
    cases h
  cases hordered : m.ordered o with
  | none =>
    have happly : m.apply o nowMs = (m, []) := by simp [apply, hordered]
    rw [happly]
    refine Effect.quiet m rfl rfl hm fun m₁ c _ h => ?_
    rw [hordered] at h
    cases h
  | some m₁ =>
    have happly : m.apply o nowMs = m₁.advance o nowMs := by simp [apply, hav, hordered]
    have hrevisions : m₁.revisions = m.revisions := revisions_of_ordered hordered
    have hcurrent₁ : m₁.current = m.current := current_of_ordered hordered
    rw [happly, advance, hcurrent₁]
    cases hcurrent : m.current with
    | none =>
      refine Effect.opens _ _ hrevisions hcurrent rfl ?_ fun _ c _ _ h => ?_
      · rintro c hc
        obtain rfl := Option.some.inj hc
        exact ⟨ho, rfl⟩
      · rw [hcurrent] at h
        cases h
    | some c =>
      simp only
      by_cases hlate : isLateCorrection c o = true
      · rw [if_pos hlate]
        refine Effect.corrects _ _ (by rw [hrevisions]) hcurrent.symm rfl ho ?_
        intro _ c' _ _ hc' hnot
        rw [hcurrent] at hc'
        obtain rfl := Option.some.inj hc'
        rw [hlate] at hnot
        cases hnot
      · rw [if_neg hlate]
        by_cases hsame : sameState c (m₁.nextInterval c o nowMs) = true
        · rw [if_pos hsame]
          refine Effect.quiet _ hrevisions (by rw [hcurrent]; rfl) ?_ ?_
          · intro c' hc'
            obtain rfl := Option.some.inj hc'
            exact hm c hcurrent
          · intro m₁' c' _ hordered' hc' _ hnot
            rw [hcurrent] at hc'
            obtain rfl := Option.some.inj hc'
            obtain rfl : m₁ = m₁' := Option.some.inj (hordered.symm.trans hordered')
            rw [hsame] at hnot
            cases hnot
        · rw [if_neg hsame]
          refine Effect.cuts _ c _ .newerState hrevisions hcurrent rfl ?_ ?_
          · intro c' hc'
            obtain rfl := Option.some.inj hc'
            exact owns_nextInterval _ _ _ ho
          · rw [nextInterval_fromMs]
            constructor
            · intro h
              exact h m₁ c (by simpa using hav) hordered hcurrent (by simpa using hlate)
                (by simpa using hsame)
            · rintro h m₁' c' - - hc' - -
              rw [hcurrent] at hc'
              exact Option.some.inj hc' ▸ h

theorem boundary_effect {c : HealthInterval} {kind : BoundaryKind} {collection : String} {atMs : ℤ}
    (hm : Owns device m) (hcurrent : m.current = some c)
    (hstrict : StrictCut m i ↔ c.fromMs < atMs) :
    Effect device m i (m.boundaryTo c kind collection (max atMs c.fromMs)).1
      (m.boundaryTo c kind collection (max atMs c.fromMs)).2 := by
  have howns : Owns device
      { m with current := some (lastKnown c collection (max atMs c.fromMs)) } := by
    intro c' hc'
    obtain rfl := Option.some.inj hc'
    exact hm c hcurrent
  have hcut : StrictCut m i ↔ c.fromMs < (lastKnown c collection (max atMs c.fromMs)).fromMs := by
    rw [hstrict, lastKnown_fromMs]
    omega
  have heffect := @Effect.cuts device m i
    { m with current := some (lastKnown c collection (max atMs c.fromMs)) } c
    (lastKnown c collection (max atMs c.fromMs)) kind rfl hcurrent rfl howns hcut
  have hmax : max (lastKnown c collection (max atMs c.fromMs)).fromMs c.fromMs =
      max atMs c.fromMs := by
    rw [lastKnown_fromMs]
    omega
  rw [hmax] at heffect
  exact heffect

theorem step_effect (hm : Owns device m) (hi : i.isOf device) :
    Effect device m i (step m i).1 (step m i).2 := by
  cases i with
  | observation o nowMs => exact observation_effect hm hi
  | timer nowMs =>
    rw [step]
    rcases onTimer_cases m nowMs with h | ⟨c, hcurrent, hexpired, h⟩
    · rw [h]
      refine Effect.quiet m rfl rfl hm fun c hc hexpired => ?_
      have hcut := congrArg (fun r => r.2.length) h
      simp [onTimer, hc, hexpired, boundaryTo] at hcut
    · rw [h]
      refine boundary_effect hm hcurrent ⟨fun hs => hs c hcurrent hexpired, ?_⟩
      intro hlt c' hc' _
      rw [hcurrent] at hc'
      exact Option.some.inj hc' ▸ hlt
  | offline atMs =>
    rw [step]
    rcases sourceOffline_cases m atMs with h | ⟨c, hcurrent, honline, h⟩
    · rw [h]
      refine Effect.quiet m rfl rfl hm fun c hc honline => ?_
      have hcut := congrArg (fun r => r.2.length) h
      simp [sourceOffline, hc, honline, boundaryTo] at hcut
    · rw [h]
      refine boundary_effect hm hcurrent ⟨fun hs => hs c hcurrent honline, ?_⟩
      intro hlt c' hc' _
      rw [hcurrent] at hc'
      exact Option.some.inj hc' ▸ hlt

theorem owns_effect {ts : List Transition} (hm : Owns device m) (h : Effect device m i m' ts) :
    Owns device m' ∧ ∀ t ∈ ts, t.interval.deviceKey = device := by
  cases h with
  | quiet hrevisions hcurrent howns _ => exact ⟨howns, by simp⟩
  | corrects r hrevisions hcurrent hrevision hdevice _ =>
    exact ⟨fun c hc => hm c (hcurrent ▸ hc), by simpa using hdevice⟩
  | opens next hrevisions hnone hcurrent howns _ =>
    exact ⟨howns, by simpa using (howns next hcurrent).1⟩
  | cuts c next kind hrevisions hsome hcurrent howns _ =>
    refine ⟨howns, fun t ht => ?_⟩
    rcases List.mem_cons.mp ht with rfl | ht
    · exact (hm c hsome).1
    · obtain rfl := List.mem_singleton.mp ht
      exact (howns next hcurrent).1

theorem owns_step (hm : Owns device m) (hi : i.isOf device) :
    Owns device (step m i).1 ∧ ∀ t ∈ (step m i).2, t.interval.deviceKey = device :=
  owns_effect hm (step_effect hm hi)

end Step

/-! ## Runs -/

section Runs

variable {ts' : List Transition} {m m' : DeviceStateMachine} {i : Input} {device : String}

/-- The transitions emitted so far and the machine go together: the list stands within the open
interval, which starts last, and the corrections are counted. -/
structure Tracked (device : String) (ts : List Transition) (m : DeviceStateMachine) : Prop where
  owns : Owns device m
  start : m.current = none → position ts = .start
  within : ∀ c, m.current = some c → ∃ j, position ts = .within j ∧
    j.contextKey = c.contextKey ∧ j.fromMs = c.fromMs
  revisions : m.revisions = wrap32 (1 + corrections ts)
  opened : ∀ t ∈ ts, t.kind = .open → t.interval.revision = 1 ∧
    ∃ c, m.current = some c ∧ t.interval.fromMs ≤ c.fromMs
  revised : ∀ t ∈ ts, t.kind = .revision → ∃ k : ℕ, 1 ≤ k ∧ k ≤ corrections ts ∧
    t.interval.revision = wrap32 (1 + k)

theorem tracked_new (device : String) (siteMinFreshnessMs : ℤ) :
    Tracked device [] (new siteMinFreshnessMs) where
  owns := fun c h => by cases h
  start := fun _ => rfl
  within := fun c h => by cases h
  revisions := wrap32_one.symm
  opened := fun t h => by cases h
  revised := fun t h => by cases h

theorem tracked_quiet (h : Tracked device ts m) (hrevisions : m'.revisions = m.revisions)
    (hcurrent : m'.current.map (·.fromMs) = m.current.map (·.fromMs)) (howns : Owns device m') :
    Tracked device ts m' := by
  have hback : ∀ c, m.current = some c → ∃ c', m'.current = some c' ∧ c'.fromMs = c.fromMs := by
    intro c hc
    rw [hc, Option.map_some, Option.map_eq_some_iff] at hcurrent
    exact hcurrent
  refine ⟨howns, fun hnone => h.start ?_, fun c' hc' => ?_, by rw [hrevisions, h.revisions],
    fun t ht hkind => ?_, h.revised⟩
  · rw [hnone, Option.map_none] at hcurrent
    exact Option.map_eq_none_iff.mp hcurrent.symm
  · rw [hc', Option.map_some] at hcurrent
    obtain ⟨c, hc, hfrom⟩ := Option.map_eq_some_iff.mp hcurrent.symm
    obtain ⟨j, hj, hkey, hjfrom⟩ := h.within c hc
    obtain ⟨hdevice, hrevision⟩ := h.owns c hc
    obtain ⟨hdevice', hrevision'⟩ := howns c' hc'
    refine ⟨j, hj, hkey.trans ?_, hjfrom.trans hfrom⟩
    exact HealthInterval.contextKey_congr (by rw [hdevice, hdevice']) hfrom
      (by rw [hrevision, hrevision'])
  · obtain ⟨hrevision, c, hc, hle⟩ := h.opened t ht hkind
    obtain ⟨c', hc', hfrom⟩ := hback c hc
    exact ⟨hrevision, c', hc', by omega⟩

theorem tracked_revision {r : HealthInterval} (h : Tracked device ts m)
    (hrevisions : m'.revisions = wrap32 (m.revisions + 1)) (hcurrent : m'.current = m.current)
    (hrevision : r.revision = m'.revisions) : Tracked device (ts ++ [⟨.revision, r⟩]) m' := by
  have hposition : position (ts ++ [⟨.revision, r⟩]) = position ts := position_append ts _
  have hcount : corrections (ts ++ [⟨.revision, r⟩]) = corrections ts + 1 := corrections_concat
  have hnumber : m'.revisions = wrap32 (1 + (corrections ts + 1 : ℕ)) := by
    rw [hrevisions, h.revisions, wrap32_wrap32_add]
    push_cast
    ring_nf
  refine ⟨fun c hc => h.owns c (hcurrent ▸ hc), fun hnone => ?_, fun c hc => ?_, ?_,
    fun t ht hkind => ?_, fun t ht hkind => ?_⟩
  · rw [hposition]
    exact h.start (hcurrent ▸ hnone)
  · rw [hposition]
    exact h.within c (hcurrent ▸ hc)
  · rw [hcount]
    exact hnumber
  · rw [hcurrent]
    rcases List.mem_append.mp ht with ht | ht
    · exact h.opened t ht hkind
    · obtain rfl := List.mem_singleton.mp ht
      cases hkind
  · rw [hcount]
    rcases List.mem_append.mp ht with ht | ht
    · obtain ⟨k, hk, hle, heq⟩ := h.revised t ht hkind
      exact ⟨k, hk, by omega, heq⟩
    · obtain rfl := List.mem_singleton.mp ht
      exact ⟨corrections ts + 1, by omega, le_rfl, hrevision.trans hnumber⟩

theorem tracked_open {closed : List Transition} {next : HealthInterval} (h : Tracked device ts m)
    (hclosed : ∀ t ∈ closed, t.kind = .close) (hrevisions : m'.revisions = m.revisions)
    (hcurrent : m'.current = some next) (howns : Owns device m')
    (hlater : ∀ c, m.current = some c → c.fromMs ≤ next.fromMs) :
    Tracked device (ts ++ closed ++ [⟨.open, next⟩]) m' := by
  have hcount : corrections (ts ++ closed ++ [⟨.open, next⟩]) = corrections ts := by
    have hnone : closed.filter (·.kind = .revision) = [] := by
      refine List.filter_eq_nil_iff.mpr fun t ht => ?_
      simp [hclosed t ht]
    simp [corrections, hnone]
  refine ⟨howns, fun hnone => ?_, fun c hc => ?_, ?_, fun t ht hkind => ?_, fun t ht hkind => ?_⟩
  · rw [hcurrent] at hnone
    cases hnone
  · rw [hcurrent] at hc
    obtain rfl := Option.some.inj hc
    exact ⟨next, position_append _ _, rfl, rfl⟩
  · rw [hcount, hrevisions, h.revisions]
  · rcases List.mem_append.mp ht with ht | ht
    · rcases List.mem_append.mp ht with ht | ht
      · obtain ⟨hrevision, c, hc, hle⟩ := h.opened t ht hkind
        exact ⟨hrevision, next, hcurrent, hle.trans (hlater c hc)⟩
      · rw [hclosed t ht] at hkind
        cases hkind
    · obtain rfl := List.mem_singleton.mp ht
      exact ⟨(howns next hcurrent).2, next, hcurrent, le_rfl⟩
  · rw [hcount]
    rcases List.mem_append.mp ht with ht | ht
    · rcases List.mem_append.mp ht with ht | ht
      · exact h.revised t ht hkind
      · rw [hclosed t ht] at hkind
        cases hkind
    · obtain rfl := List.mem_singleton.mp ht
      cases hkind

theorem tracked_step (h : Tracked device ts m) (he : Effect device m i m' ts')
    (hcut : StrictCut m i) : Tracked device (ts ++ ts') m' := by
  cases he with
  | quiet hrevisions hcurrent howns _ =>
    rw [List.append_nil]
    exact tracked_quiet h hrevisions hcurrent howns
  | corrects r hrevisions hcurrent hrevision _ _ =>
    exact tracked_revision h hrevisions hcurrent hrevision
  | opens next hrevisions hnone hcurrent howns _ =>
    have hopen := @tracked_open ts m m' device [] next h (by simp) hrevisions hcurrent howns
      (by simp [hnone])
    rwa [List.append_nil] at hopen
  | cuts c next kind hrevisions hsome hcurrent howns hstrict =>
    have hlt := hstrict.mp hcut
    have hopen := @tracked_open ts m m' device
      [⟨.close, ended c (max next.fromMs c.fromMs) kind⟩] next h (by simp) hrevisions hcurrent howns
      (fun c' hc' => by rw [hsome] at hc'; obtain rfl := Option.some.inj hc'; exact hlt.le)
    rwa [List.append_assoc] at hopen

theorem distinctKeys_revision {r : HealthInterval} (h : Tracked device ts m)
    (hkeys : DistinctKeys ts) (hrevision : r.revision = wrap32 (m.revisions + 1))
    (hfew : corrections ts + 1 < 2 ^ 32) : DistinctKeys (ts ++ [⟨.revision, r⟩]) := by
  refine distinctKeys_concat.mpr ⟨hkeys, fun _ t ht hkind hkey => ?_⟩
  have hnumber : r.revision = wrap32 (2 + corrections ts) := by
    rw [hrevision, h.revisions, wrap32_wrap32_add]
    ring_nf
  have hsame : t.interval.revision = r.revision := (HealthInterval.eq_of_contextKey hkey).2
  rw [hnumber] at hsame
  cases htk : t.kind with
  | close => exact hkind htk
  | «open» =>
    rw [(h.opened t ht htk).1] at hsame
    have := eq_of_wrap32_eq (wrap32_one.trans hsame) (by omega) (by omega)
    omega
  | revision =>
    obtain ⟨k, _, hle, heq⟩ := h.revised t ht htk
    rw [heq] at hsame
    have := eq_of_wrap32_eq hsame (by omega) (by omega)
    omega

theorem fresh_open {next : HealthInterval} (h : Tracked device ts m) (hrevision : next.revision = 1)
    (hlater : ∀ c, m.current = some c → c.fromMs < next.fromMs) (hfew : corrections ts < 2 ^ 32) :
    ∀ t ∈ ts, t.kind ≠ .close → t.interval.contextKey ≠ next.contextKey := by
  intro t ht hkind hkey
  obtain ⟨hfrom, hsame⟩ := HealthInterval.eq_of_contextKey hkey
  cases htk : t.kind with
  | close => exact hkind htk
  | «open» =>
    obtain ⟨-, c, hc, hle⟩ := h.opened t ht htk
    have hlt := hlater c hc
    omega
  | revision =>
    obtain ⟨k, hk, hle, heq⟩ := h.revised t ht htk
    rw [heq, hrevision] at hsame
    have := eq_of_wrap32_eq (hsame.trans wrap32_one.symm) (by omega) (by omega)
    omega

theorem timeline_step (h : Tracked device ts m) (he : Effect device m i m' ts')
    (hcut : StrictCut m i) (htimeline : Timeline ts) (hfew : corrections (ts ++ ts') < 2 ^ 32) :
    Timeline (ts ++ ts') := by
  obtain ⟨hcontiguous, hkeys⟩ := htimeline
  have hfew' : corrections ts < 2 ^ 32 := (corrections_le_append ts ts').trans_lt hfew
  cases he with
  | quiet hrevisions hcurrent howns _ =>
    rw [List.append_nil]
    exact ⟨hcontiguous, hkeys⟩
  | corrects r hrevisions hcurrent hrevision _ _ =>
    rw [corrections_concat] at hfew
    exact ⟨contiguous_concat.mpr ⟨hcontiguous, trivial⟩,
      distinctKeys_revision h hkeys (hrevision.trans hrevisions) hfew⟩
  | opens next hrevisions hnone hcurrent howns _ =>
    refine ⟨contiguous_concat.mpr ⟨hcontiguous, ?_⟩, distinctKeys_concat.mpr ⟨hkeys, fun _ =>
      fresh_open h (howns next hcurrent).2 (by simp [hnone]) hfew'⟩⟩
    rw [h.start hnone]
    trivial
  | cuts c next kind hrevisions hsome hcurrent howns hstrict =>
    have hlt := hstrict.mp hcut
    have hmax : max next.fromMs c.fromMs = next.fromMs := max_eq_left hlt.le
    obtain ⟨j, hj, hkey, hfrom⟩ := h.within c hsome
    have hlater : ∀ c', m.current = some c' → c'.fromMs < next.fromMs := by
      intro c' hc'
      rw [hsome] at hc'
      exact Option.some.inj hc' ▸ hlt
    have hfresh := fresh_open h (howns next hcurrent).2 hlater hfew'
    rw [hmax, List.append_cons]
    refine ⟨contiguous_concat.mpr ⟨contiguous_concat.mpr ⟨hcontiguous, ?_⟩, ?_⟩,
      distinctKeys_concat.mpr ⟨distinctKeys_concat.mpr ⟨hkeys, fun hne => ?_⟩, fun _ t ht => ?_⟩⟩
    · rw [hj]
      exact ⟨hkey.symm, next.fromMs, rfl, hlt.le⟩
    · rw [position_append]
      exact rfl
    · exact absurd rfl hne
    · rcases List.mem_append.mp ht with ht | ht
      · exact hfresh t ht
      · obtain rfl := List.mem_singleton.mp ht
        exact fun hne => absurd rfl hne

theorem strictCut_of_timeline (h : Tracked device ts m) (he : Effect device m i m' ts')
    (htimeline : Timeline (ts ++ ts')) : StrictCut m i := by
  cases he with
  | quiet hrevisions hcurrent howns hstrict => exact hstrict
  | corrects r hrevisions hcurrent hrevision _ hstrict => exact hstrict
  | opens next hrevisions hnone hcurrent howns hstrict => exact hstrict
  | cuts c next kind hrevisions hsome hcurrent howns hstrict =>
    refine hstrict.mpr ?_
    rw [List.append_cons] at htimeline
    obtain ⟨hcontiguous, hkeys⟩ := htimeline
    -- the next interval starts where the last one ends, so not before the last one started
    have hfits := (contiguous_concat.mp hcontiguous).2
    rw [position_append] at hfits
    have hend : next.fromMs = max next.fromMs c.fromMs := hfits
    -- at the same start it would take the key of the last one
    obtain ⟨j, hj, hkey, hfrom⟩ := h.within c hsome
    have hopened : ⟨.open, j⟩ ∈ ts := mem_of_position hj
    obtain ⟨hdevice, hrevision⟩ := h.owns c hsome
    obtain ⟨hdevice', hrevision'⟩ := howns next hcurrent
    have hne := (distinctKeys_concat.mp hkeys).2 (by simp) ⟨.open, j⟩
      (List.mem_append_left _ hopened) (by simp)
    have hdiffer : c.fromMs ≠ next.fromMs := by
      intro hsame
      refine hne (hkey.trans ?_)
      exact HealthInterval.contextKey_congr (by rw [hdevice, hdevice']) hsame
        (by rw [hrevision, hrevision'])
    omega

theorem tracked_run {siteMinFreshnessMs : ℤ} {inputs : List Input}
    (hdevice : ∀ i ∈ inputs, i.isOf device)
    (hcuts : Machine.Always step StrictCut (new siteMinFreshnessMs) inputs) :
    Tracked device (Machine.outputs step (new siteMinFreshnessMs) inputs)
      (Machine.stateAfter step (new siteMinFreshnessMs) inputs) := by
  induction inputs using List.reverseRecOn with
  | nil => exact tracked_new device siteMinFreshnessMs
  | append_singleton pre i ih =>
    obtain ⟨hpre, hlast⟩ := (Machine.always_concat _ _ _ _ _).mp hcuts
    have htracked := ih (fun j hj => hdevice j (List.mem_append_left _ hj)) hpre
    rw [Machine.outputs_concat, Machine.stateAfter_concat]
    exact tracked_step htracked (step_effect htracked.owns (hdevice i (by simp))) hlast

theorem timeline_of_strictCuts {siteMinFreshnessMs : ℤ} {inputs : List Input}
    (hdevice : ∀ i ∈ inputs, i.isOf device)
    (hfew : corrections (Machine.outputs step (new siteMinFreshnessMs) inputs) < 2 ^ 32)
    (hcuts : Machine.Always step StrictCut (new siteMinFreshnessMs) inputs) :
    Timeline (Machine.outputs step (new siteMinFreshnessMs) inputs) := by
  induction inputs using List.reverseRecOn with
  | nil => exact ⟨fun pre t post h => by simp at h, List.nodup_nil⟩
  | append_singleton pre i ih =>
    obtain ⟨hpre, hlast⟩ := (Machine.always_concat _ _ _ _ _).mp hcuts
    have hdevice' : ∀ j ∈ pre, j.isOf device := fun j hj => hdevice j (List.mem_append_left _ hj)
    have htracked := tracked_run hdevice' hpre
    rw [Machine.outputs_concat] at hfew ⊢
    exact timeline_step htracked (step_effect htracked.owns (hdevice i (by simp))) hlast
      (ih hdevice' ((corrections_le_append _ _).trans_lt hfew) hpre) hfew

theorem strictCuts_of_timeline {siteMinFreshnessMs : ℤ} {inputs : List Input}
    (hdevice : ∀ i ∈ inputs, i.isOf device)
    (htimeline : Timeline (Machine.outputs step (new siteMinFreshnessMs) inputs)) :
    Machine.Always step StrictCut (new siteMinFreshnessMs) inputs := by
  induction inputs using List.reverseRecOn with
  | nil => exact Machine.always_nil _ _ _
  | append_singleton pre i ih =>
    have hdevice' : ∀ j ∈ pre, j.isOf device := fun j hj => hdevice j (List.mem_append_left _ hj)
    rw [Machine.outputs_concat] at htimeline
    have hpre := ih hdevice' (timeline_of_append htimeline)
    have htracked := tracked_run hdevice' hpre
    exact (Machine.always_concat _ _ _ _ _).mpr ⟨hpre, strictCut_of_timeline htracked
      (step_effect htracked.owns (hdevice i (by simp))) htimeline⟩

/-- The transitions of a run are one timeline exactly when every cut falls strictly after the start
of the open interval. -/
theorem timeline_iff (siteMinFreshnessMs : ℤ) (inputs : List Input)
    (hdevice : ∀ i ∈ inputs, i.isOf device)
    (hfew : corrections (Machine.outputs step (new siteMinFreshnessMs) inputs) < 2 ^ 32) :
    Timeline (Machine.outputs step (new siteMinFreshnessMs) inputs) ↔
      Machine.Always step StrictCut (new siteMinFreshnessMs) inputs :=
  ⟨strictCuts_of_timeline hdevice, timeline_of_strictCuts hdevice hfew⟩

end Runs

def flagged (sequence observedAtMs : ℤ) (flags : List String) : HealthObservation :=
  { tenantId := "t"
    site := "s"
    deviceId := "d"
    messageKind := "STATE_SNAPSHOT"
    stateComplete := true
    sequence := sequence
    observedAtMs := observedAtMs
    verifiedAtMs := observedAtMs
    collectionState := "VERIFIED"
    activeFlags := flags }

theorem timeline_iff_in_order : Timeline (Machine.outputs step (new 60000)
    [.observation (flagged 1 100 []) 100, .observation (flagged 2 200 ["M"]) 200]) ↔
    Machine.Always step StrictCut (new 60000)
      [.observation (flagged 1 100 []) 100, .observation (flagged 2 200 ["M"]) 200] := by
  refine @timeline_iff "t|s|d" 60000 _ ?_ (by decide)
  intro i hi
  rcases List.mem_cons.mp hi with rfl | hi
  · exact (by decide : (flagged 1 100 []).deviceKey = "t|s|d")
  · obtain rfl := List.mem_singleton.mp hi
    exact (by decide : (flagged 2 200 ["M"]).deviceKey = "t|s|d")

/-- A newer state that was observed before the open interval started opens before the last
interval ends. -/
theorem earlier_observation_overlaps : ¬ Timeline (Machine.outputs step (new 60000)
    [.observation (flagged 1 200 []) 200, .observation (flagged 2 100 ["M"]) 210]) := by
  rintro ⟨hcontiguous, -⟩
  have hfits := hcontiguous
    [⟨.open, (new 60000).build (flagged 1 200 []) 200⟩,
      ⟨.close, ended ((new 60000).build (flagged 1 200 []) 200) 200 .newerState⟩]
    ⟨.open, (new 60000).build (flagged 2 100 ["M"]) 210⟩ [] (by decide +kernel)
  have hafter : position
      [⟨.open, (new 60000).build (flagged 1 200 []) 200⟩,
        ⟨.close, ended ((new 60000).build (flagged 1 200 []) 200) 200 .newerState⟩] =
      .after 200 := by decide
  rw [hafter] at hfits
  exact absurd hfits (by decide : (100 : ℤ) ≠ 200)

end DeviceStateMachine

end OpenBridge.InstrumentHealth
