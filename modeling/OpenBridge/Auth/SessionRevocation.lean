import Mathlib.Data.List.Nodup
import OpenBridge.Auth.AuthService
import OpenBridge.Foundation.Slots

/-!
# Auth: what ends a session

A refresh token enters the table once, and once it has left the table it does not come back.  A
rotation that finds its row therefore exchanges a token that was neither exchanged before, nor
logged out, nor stored before a revocation that has returned.
-/

namespace OpenBridge.Auth

open OpenBridge.Foundation OpenBridge.Foundation.Slots

namespace AuthService

/-! ## The effects -/

def Effect.stores (t : ℕ) : Effect → Bool
  | stored token _ => token = t
  | exchanged _ new _ => new = t
  | _ => false

def Effect.exchanges (t : ℕ) : Effect → Bool
  | exchanged old _ _ => old = t
  | _ => false

def Effect.ends (t : ℕ) : Effect → Bool
  | exchanged old _ _ => old = t
  | loggedOut token => token = t
  | _ => false

/-- A token was exchanged, logged out, or stored before a revocation that has returned. -/
def Ended (effects : List Effect) (t : ℕ) : Prop :=
  (∃ e ∈ effects, e.ends t = true) ∨
    ∃ pre post, effects = pre ++ .revoked :: post ∧ ∃ e ∈ pre, e.stores t = true

def EndsAreFinal (effects : List Effect) : Prop :=
  ∀ pre e post, effects = pre ++ e :: post → ∀ t, e.exchanges t = true → ¬ Ended pre t

def loginOf (first : ℕ → Option ℤ) (effects : List Effect) : ℕ → Option ℤ :=
  effects.foldl (fun login e =>
    match e with
    | .stored token now => Function.update login token (some now)
    | .exchanged old new _ => Function.update login new (login old)
    | _ => login) first

def WithinLimit (limitMs : ℤ) (first : ℕ → Option ℤ) (effects : List Effect) : Prop :=
  ∀ pre e post, effects = pre ++ e :: post → ∀ old new checkedAt, e = .exchanged old new checkedAt →
    ∀ login, loginOf first pre old = some login → checkedAt ≤ login + limitMs * 1000

def Revoked (s : Sessions) : Prop :=
  ∀ t ∈ s.signed, t.readAt < s.revocations → verifyToken s t = false

theorem ended_concat {effects : List Effect} {e : Effect} {t : ℕ} (h : Ended (effects ++ [e]) t) :
    Ended effects t ∨ e.ends t = true ∨ (e = .revoked ∧ ∃ e' ∈ effects, e'.stores t = true) := by
  rcases h with ⟨e', hmem, hends⟩ | ⟨pre, post, heq, hstored⟩
  · rcases List.mem_append.mp hmem with hmem | hmem
    · exact .inl (.inl ⟨e', hmem, hends⟩)
    · obtain rfl := List.mem_singleton.mp hmem
      exact .inr (.inl hends)
  · rcases List.eq_nil_or_concat post with rfl | ⟨post', last, rfl⟩
    · obtain ⟨rfl, hcons⟩ := List.append_inj' heq rfl
      obtain ⟨rfl, -⟩ := List.cons.inj hcons
      exact .inr (.inr ⟨rfl, hstored⟩)
    · have hsplit : effects ++ [e] = (pre ++ .revoked :: post') ++ [last] := by
        rw [heq, List.append_assoc, List.cons_append, List.concat_eq_append]
      obtain ⟨hl, -⟩ := List.append_inj' hsplit rfl
      exact .inl (.inr ⟨pre, post', hl, hstored⟩)

theorem loginOf_concat (first : ℕ → Option ℤ) (effects : List Effect) (e : Effect) :
    loginOf first (effects ++ [e]) = match e with
      | .stored token now => Function.update (loginOf first effects) token (some now)
      | .exchanged old new _ => Function.update (loginOf first effects) new (loginOf first effects old)
      | _ => loginOf first effects := by
  unfold loginOf
  rw [List.foldl_append]
  cases e <;> rfl

/-! ## The refresh tokens -/

def Op.exchanging : Op → Option (ℕ × ℤ)
  | readUser old checkedAt => some (old, checkedAt)
  | readPermissions (.refresh old checkedAt) _ _ => some (old, checkedAt)
  | sign (.refresh old checkedAt) _ _ _ => some (old, checkedAt)
  | rotate old checkedAt _ _ => some (old, checkedAt)
  | _ => none

def Issued (next : ℕ) (ops : List Op) (t : ℕ) : Prop := t < next ∧ ∀ op ∈ ops, op.pending ≠ some t

/-- What the steps keep of the refresh tokens: those that have ended are gone for good, and a row knows
the login of its session. -/
structure Tokens (limitMs : ℤ) (first : ℕ → Option ℤ) (rows : List RefreshToken) (next : ℕ)
    (ops : List Op) (effects : List Effect) : Prop where
  nodup : (rows.map RefreshToken.token).Nodup
  present : ∀ r ∈ rows, Issued next ops r.token
  below : ∀ op ∈ ops, ∀ t, op.pending = some t → t < next
  apart : ∀ (i j : ℕ) (p q : Op) (t : ℕ), ops[i]? = some p → ops[j]? = some q →
    p.pending = some t → q.pending = some t → i = j
  admitted : ∀ op ∈ ops, ∀ t checkedAt, op.exchanging = some (t, checkedAt) → Issued next ops t ∧
    ∀ login, loginOf first effects t = some login → checkedAt ≤ login + limitMs * 1000
  stored : ∀ t, (∃ e ∈ effects, e.stores t = true) → Issued next ops t
  ended : ∀ t, Ended effects t → Issued next ops t ∧ ∀ r ∈ rows, r.token ≠ t
  logins : ∀ r ∈ rows, loginOf first effects r.token = some r.start
  final : EndsAreFinal effects
  within : WithinLimit limitMs first effects

section Steps

variable {limitMs : ℤ} {first : ℕ → Option ℤ} {rows : List RefreshToken} {next : ℕ}
  {ops : List Op} {effects : List Effect}

theorem Issued.of_pending {ops' : List Op}
    (hpending : ∀ (i : ℕ) (op' : Op) (t : ℕ), ops'[i]? = some op' → op'.pending = some t →
      ∃ op, ops[i]? = some op ∧ op.pending = some t)
    {t : ℕ} (h : Issued next ops t) : Issued next ops' t := by
  refine ⟨h.1, fun op hop hheld => ?_⟩
  obtain ⟨i, hi⟩ := List.mem_iff_getElem?.mp hop
  obtain ⟨op', hop', hheld'⟩ := hpending i op t hi hheld
  exact h.2 op' (List.mem_of_getElem? hop') hheld'

theorem Tokens.goOn (h : Tokens limitMs first rows next ops effects) {ops' : List Op}
    (hpending : ∀ (i : ℕ) (op' : Op) (t : ℕ), ops'[i]? = some op' → op'.pending = some t →
      ∃ op, ops[i]? = some op ∧ op.pending = some t)
    (hadmitted : ∀ op' ∈ ops', ∀ t checkedAt, op'.exchanging = some (t, checkedAt) →
      Issued next ops t ∧
        ∀ login, loginOf first effects t = some login → checkedAt ≤ login + limitMs * 1000) :
    Tokens limitMs first rows next ops' effects := by
  refine ⟨h.nodup, fun r hr => (h.present r hr).of_pending hpending, ?_, ?_, ?_,
    fun t ht => (h.stored t ht).of_pending hpending,
    fun t ht => ⟨(h.ended t ht).1.of_pending hpending, (h.ended t ht).2⟩, h.logins, h.final, h.within⟩
  · intro op' hop' t ht
    obtain ⟨i, hi⟩ := List.mem_iff_getElem?.mp hop'
    obtain ⟨op, hop, hheld⟩ := hpending i op' t hi ht
    exact h.below op (List.mem_of_getElem? hop) t hheld
  · intro i j p q t hi hj hp hq
    obtain ⟨p', hi', hp'⟩ := hpending i p t hi hp
    obtain ⟨q', hj', hq'⟩ := hpending j q t hj hq
    exact h.apart i j p' q' t hi' hj' hp' hq'
  · intro op' hop' t checkedAt ht
    obtain ⟨hissued, hlimit⟩ := hadmitted op' hop' t checkedAt ht
    exact ⟨hissued.of_pending hpending, hlimit⟩

theorem Tokens.set (h : Tokens limitMs first rows next ops effects) {k : ℕ} {op op' : Op}
    (hk : ops[k]? = some op) (hpending : op'.pending = none)
    (hexchanging : ∀ t checkedAt, op'.exchanging = some (t, checkedAt) →
      op.exchanging = some (t, checkedAt)) :
    Tokens limitMs first rows next (ops.set k op') effects := by
  refine h.goOn (fun i q t hi hq => ?_) fun q hq t checkedAt ht => ?_
  · rcases getElem?_set_cases hi with ⟨-, rfl⟩ | ⟨-, hi⟩
    · exact absurd (hpending.symm.trans hq) nofun
    · exact ⟨q, hi, hq⟩
  · rcases List.mem_or_eq_of_mem_set hq with hq | rfl
    · exact h.admitted q hq t checkedAt ht
    · exact h.admitted op (List.mem_of_getElem? hk) t checkedAt (hexchanging t checkedAt ht)

theorem Tokens.start (h : Tokens limitMs first rows next ops effects) {op : Op}
    (hpending : op.pending = none)
    (hadmitted : ∀ t checkedAt, op.exchanging = some (t, checkedAt) → Issued next ops t ∧
      ∀ login, loginOf first effects t = some login → checkedAt ≤ login + limitMs * 1000) :
    Tokens limitMs first rows next (ops ++ [op]) effects := by
  refine h.goOn (fun i q t hi hq => ?_) fun q hq t checkedAt ht => ?_
  · rw [List.getElem?_append] at hi
    split at hi
    · exact ⟨q, hi, hq⟩
    · obtain rfl := List.mem_singleton.mp (List.mem_of_getElem? hi)
      exact absurd (hpending.symm.trans hq) nofun
  · rcases List.mem_append.mp hq with hq | hq
    · exact h.admitted q hq t checkedAt ht
    · obtain rfl := List.mem_singleton.mp hq
      exact hadmitted t checkedAt ht

theorem Tokens.sign (h : Tokens limitMs first rows next ops effects) {k : ℕ} {op op' : Op}
    (hk : ops[k]? = some op) (hpending : op'.pending = some next)
    (hexchanging : ∀ t checkedAt, op'.exchanging = some (t, checkedAt) →
      op.exchanging = some (t, checkedAt)) :
    Tokens limitMs first rows (next + 1) (ops.set k op') effects := by
  have hissued : ∀ t, Issued next ops t → Issued (next + 1) (ops.set k op') t := by
    intro t ht
    refine ⟨Nat.lt_succ_of_lt ht.1, fun q hq hheld => ?_⟩
    rcases List.mem_or_eq_of_mem_set hq with hq | rfl
    · exact ht.2 q hq hheld
    · rw [hpending] at hheld
      exact Nat.lt_irrefl next (Option.some.inj hheld ▸ ht.1)
  refine ⟨h.nodup, fun r hr => hissued _ (h.present r hr), ?_, ?_, ?_,
    fun t ht => hissued t (h.stored t ht),
    fun t ht => ⟨hissued t (h.ended t ht).1, (h.ended t ht).2⟩, h.logins, h.final, h.within⟩
  · intro q hq t ht
    rcases List.mem_or_eq_of_mem_set hq with hq | rfl
    · exact Nat.lt_succ_of_lt (h.below q hq t ht)
    · rw [hpending] at ht
      exact Option.some.inj ht ▸ Nat.lt_succ_self next
  · intro i j p q t hi hj hp hq
    rcases getElem?_set_cases hi with ⟨hik, rfl⟩ | ⟨-, hi'⟩
    · rcases getElem?_set_cases hj with ⟨hjk, -⟩ | ⟨-, hj'⟩
      · exact hik.trans hjk.symm
      · have hlt := h.below q (List.mem_of_getElem? hj') t hq
        rw [hpending] at hp
        exact absurd (Option.some.inj hp ▸ hlt) (Nat.lt_irrefl _)
    · rcases getElem?_set_cases hj with ⟨-, rfl⟩ | ⟨-, hj'⟩
      · have hlt := h.below p (List.mem_of_getElem? hi') t hp
        rw [hpending] at hq
        exact absurd (Option.some.inj hq ▸ hlt) (Nat.lt_irrefl _)
      · exact h.apart i j p q t hi' hj' hp hq
  · intro q hq t checkedAt ht
    rcases List.mem_or_eq_of_mem_set hq with hq | rfl
    · exact ⟨hissued t (h.admitted q hq t checkedAt ht).1, (h.admitted q hq t checkedAt ht).2⟩
    · have hop := h.admitted op (List.mem_of_getElem? hk) t checkedAt (hexchanging t checkedAt ht)
      exact ⟨hissued t hop.1, hop.2⟩

theorem Tokens.delete (h : Tokens limitMs first rows next ops effects) {rows' : List RefreshToken}
    (hsub : rows'.Sublist rows) : Tokens limitMs first rows' next ops effects :=
  ⟨h.nodup.sublist (hsub.map _), fun r hr => h.present r (hsub.subset hr), h.below, h.apart, h.admitted,
    h.stored, fun t ht => ⟨(h.ended t ht).1, fun r hr => (h.ended t ht).2 r (hsub.subset hr)⟩,
    fun r hr => h.logins r (hsub.subset hr), h.final, h.within⟩

theorem Tokens.note (h : Tokens limitMs first rows next ops effects) {e : Effect}
    (he : e = .revoked ∨ ∃ t, e = .loggedOut t)
    (hends : ∀ t, Ended (effects ++ [e]) t → Issued next ops t ∧ ∀ r ∈ rows, r.token ≠ t) :
    Tokens limitMs first rows next ops (effects ++ [e]) := by
  have hlogin : loginOf first (effects ++ [e]) = loginOf first effects := by
    rw [loginOf_concat]
    rcases he with rfl | ⟨t, rfl⟩
    · rfl
    · rfl
  refine ⟨h.nodup, h.present, h.below, h.apart, ?_, ?_, hends, ?_, ?_, ?_⟩
  · rw [hlogin]
    exact h.admitted
  · rintro t ⟨e', hmem, hstores⟩
    rcases List.mem_append.mp hmem with hmem | hmem
    · exact h.stored t ⟨e', hmem, hstores⟩
    · obtain rfl := List.mem_singleton.mp hmem
      rcases he with rfl | ⟨t', rfl⟩
      · cases hstores
      · cases hstores
  · rw [hlogin]
    exact h.logins
  · refine forall_split_concat h.final fun t hexchanges => ?_
    rcases he with rfl | ⟨t', rfl⟩
    · cases hexchanges
    · cases hexchanges
  · refine forall_split_concat h.within fun old new checkedAt heq => ?_
    rcases he with rfl | ⟨t', rfl⟩
    · cases heq
    · cases heq

theorem Issued.ne_pending {t w : ℕ} (h : Issued next ops t) {op : Op} (hop : op ∈ ops)
    (hheld : op.pending = some w) : t ≠ w :=
  fun heq => h.2 op hop (heq ▸ hheld)

theorem Issued.written {t : ℕ} (h : Issued next ops t) (k : ℕ) :
    Issued next (ops.set k (.ended true)) t := by
  refine ⟨h.1, fun q hq hheld => ?_⟩
  rcases List.mem_or_eq_of_mem_set hq with hq | rfl
  · exact h.2 q hq hheld
  · cases hheld

theorem Tokens.issued_written (h : Tokens limitMs first rows next ops effects) {k : ℕ} {op : Op}
    (hk : ops[k]? = some op) {w : ℕ} (hheld : op.pending = some w) :
    Issued next (ops.set k (.ended true)) w := by
  refine ⟨h.below op (List.mem_of_getElem? hk) w hheld, fun q hq hheld' => ?_⟩
  obtain ⟨j, hj⟩ := List.mem_iff_getElem?.mp hq
  rcases getElem?_set_cases hj with ⟨-, rfl⟩ | ⟨hjk, hj⟩
  · cases hheld'
  · exact hjk (h.apart j k q op w hj hk hheld' hheld)

theorem Tokens.left_of_written (h : Tokens limitMs first rows next ops effects) (k : ℕ) :
    (∀ op ∈ ops.set k (.ended true), ∀ t, op.pending = some t → t < next) ∧
      ∀ (i j : ℕ) (p q : Op) (t : ℕ), (ops.set k (.ended true))[i]? = some p →
        (ops.set k (.ended true))[j]? = some q → p.pending = some t → q.pending = some t → i = j := by
  refine ⟨fun q hq t ht => ?_, fun i j p q t hi hj hp hq => ?_⟩
  · rcases List.mem_or_eq_of_mem_set hq with hq | rfl
    · exact h.below q hq t ht
    · cases ht
  · rcases getElem?_set_cases hi with ⟨-, rfl⟩ | ⟨-, hi'⟩
    · cases hp
    · rcases getElem?_set_cases hj with ⟨-, rfl⟩ | ⟨-, hj'⟩
      · cases hq
      · exact h.apart i j p q t hi' hj' hp hq

theorem Tokens.store (h : Tokens limitMs first rows next ops effects) {k token : ℕ} {expiresAt : ℤ}
    (hk : ops[k]? = some (.store token expiresAt)) (now : ℤ) :
    Tokens limitMs first (rows ++ [⟨token, expiresAt, now, some now, some now⟩]) next
      (ops.set k (.ended true)) (effects ++ [.stored token now]) := by
  have hmem := List.mem_of_getElem? hk
  have hne : ∀ t, Issued next ops t → t ≠ token := fun t ht => ht.ne_pending hmem rfl
  have hnew : Issued next (ops.set k (.ended true)) token := h.issued_written hk rfl
  obtain ⟨hbelow, hapart⟩ := h.left_of_written k
  have hlogin : ∀ t, t ≠ token →
      loginOf first (effects ++ [.stored token now]) t = loginOf first effects t := by
    intro t ht
    rw [loginOf_concat]
    exact Function.update_of_ne ht _ _
  refine ⟨?_, ?_, hbelow, hapart, ?_, ?_, ?_, ?_, ?_, ?_⟩
  · rw [List.map_append, List.map_singleton]
    refine h.nodup.append (List.nodup_singleton _) fun t ht hsingle => ?_
    obtain ⟨r, hr, rfl⟩ := List.mem_map.mp ht
    exact hne r.token (h.present r hr) (List.mem_singleton.mp hsingle)
  · intro r hr
    rcases List.mem_append.mp hr with hr | hr
    · exact (h.present r hr).written k
    · rw [List.mem_singleton.mp hr]
      exact hnew
  · intro q hq t checkedAt ht
    rcases List.mem_or_eq_of_mem_set hq with hq | rfl
    · obtain ⟨hissued, hlimit⟩ := h.admitted q hq t checkedAt ht
      rw [hlogin t (hne t hissued)]
      exact ⟨hissued.written k, hlimit⟩
    · cases ht
  · rintro t ⟨e, he, hstores⟩
    rcases List.mem_append.mp he with he | he
    · exact (h.stored t ⟨e, he, hstores⟩).written k
    · rw [List.mem_singleton.mp he] at hstores
      exact of_decide_eq_true hstores ▸ hnew
  · intro t ht
    rcases ended_concat ht with ht | ht | ⟨ht, -⟩
    · obtain ⟨hissued, hgone⟩ := h.ended t ht
      refine ⟨hissued.written k, fun r hr => ?_⟩
      rcases List.mem_append.mp hr with hr | hr
      · exact hgone r hr
      · rw [List.mem_singleton.mp hr]
        exact (hne t hissued).symm
    · cases ht
    · cases ht
  · intro r hr
    rcases List.mem_append.mp hr with hr | hr
    · rw [hlogin r.token (hne r.token (h.present r hr))]
      exact h.logins r hr
    · rw [List.mem_singleton.mp hr, loginOf_concat]
      exact Function.update_self _ _ _
  · exact forall_split_concat h.final fun t hexchanges => nomatch hexchanges
  · exact forall_split_concat h.within fun old new checkedAt heq => nomatch heq

theorem mem_rotated {old new : ℕ} {expiresAt now : ℤ} {r : RefreshToken}
    (h : r ∈ rotated rows old new expiresAt now) :
    (r ∈ rows ∧ r.token ≠ old) ∨ ∃ q ∈ rows, q.token = old ∧ r.token = new ∧ r.start = q.start := by
  obtain ⟨q, hq, rfl⟩ := List.mem_map.mp h
  split
  · rename_i hold
    exact .inr ⟨q, hq, hold, rfl, rfl⟩
  · rename_i hold
    exact .inl ⟨hq, hold⟩

theorem nodup_rotated {old new : ℕ} {expiresAt now : ℤ} (h : (rows.map RefreshToken.token).Nodup)
    (hnew : ∀ r ∈ rows, r.token ≠ new) :
    ((rotated rows old new expiresAt now).map RefreshToken.token).Nodup := by
  have htokens : (rotated rows old new expiresAt now).map RefreshToken.token =
      (rows.map RefreshToken.token).map fun t => if t = old then new else t := by
    unfold rotated
    rw [List.map_map, List.map_map]
    refine List.map_congr_left fun r _ => ?_
    rw [Function.comp_apply, Function.comp_apply]
    split
    · rfl
    · rfl
  rw [htokens]
  refine h.map_on fun t ht u hu heq => ?_
  obtain ⟨q, hq, rfl⟩ := List.mem_map.mp ht
  obtain ⟨r, hr, rfl⟩ := List.mem_map.mp hu
  by_cases hqold : q.token = old
  · by_cases hrold : r.token = old
    · exact hqold.trans hrold.symm
    · rw [if_pos hqold, if_neg hrold] at heq
      exact absurd heq.symm (hnew r hr)
  · by_cases hrold : r.token = old
    · rw [if_neg hqold, if_pos hrold] at heq
      exact absurd heq (hnew q hq)
    · rwa [if_neg hqold, if_neg hrold] at heq

theorem Tokens.rotate (h : Tokens limitMs first rows next ops effects) {k old new : ℕ}
    {checkedAt expiresAt : ℤ} (hk : ops[k]? = some (.rotate old checkedAt new expiresAt))
    (hfound : ∃ r ∈ rows, r.token = old) (now : ℤ) :
    Tokens limitMs first (rotated rows old new expiresAt now) next (ops.set k (.ended true))
      (effects ++ [.exchanged old new checkedAt]) := by
  have hmem := List.mem_of_getElem? hk
  have hne : ∀ t, Issued next ops t → t ≠ new := fun t ht => ht.ne_pending hmem rfl
  have hnew : Issued next (ops.set k (.ended true)) new := h.issued_written hk rfl
  obtain ⟨holdIssued, holdLimit⟩ := h.admitted _ hmem old checkedAt rfl
  obtain ⟨hbelow, hapart⟩ := h.left_of_written k
  have hlogin : ∀ t, t ≠ new →
      loginOf first (effects ++ [.exchanged old new checkedAt]) t = loginOf first effects t := by
    intro t ht
    rw [loginOf_concat]
    exact Function.update_of_ne ht _ _
  refine ⟨nodup_rotated h.nodup fun r hr => hne _ (h.present r hr), ?_, hbelow, hapart, ?_, ?_, ?_, ?_,
    ?_, ?_⟩
  · intro r hr
    rcases mem_rotated hr with ⟨hr, -⟩ | ⟨q, -, -, htoken, -⟩
    · exact (h.present r hr).written k
    · exact htoken ▸ hnew
  · intro q hq t at_ ht
    rcases List.mem_or_eq_of_mem_set hq with hq | rfl
    · obtain ⟨hissued, hlimit⟩ := h.admitted q hq t at_ ht
      rw [hlogin t (hne t hissued)]
      exact ⟨hissued.written k, hlimit⟩
    · cases ht
  · rintro t ⟨e, he, hstores⟩
    rcases List.mem_append.mp he with he | he
    · exact (h.stored t ⟨e, he, hstores⟩).written k
    · rw [List.mem_singleton.mp he] at hstores
      exact of_decide_eq_true hstores ▸ hnew
  · intro t ht
    have hgone : Issued next ops t → (t = old ∨ ∀ r ∈ rows, r.token ≠ t) →
        ∀ r ∈ rotated rows old new expiresAt now, r.token ≠ t := by
      intro hissued hold r hr
      rcases mem_rotated hr with ⟨hr, hrold⟩ | ⟨q, -, -, htoken, -⟩
      · rcases hold with rfl | hrows
        · exact hrold
        · exact hrows r hr
      · rw [htoken]
        exact (hne t hissued).symm
    rcases ended_concat ht with ht | ht | ⟨ht, -⟩
    · obtain ⟨hissued, hrows⟩ := h.ended t ht
      exact ⟨hissued.written k, hgone hissued (.inr hrows)⟩
    · obtain rfl : old = t := of_decide_eq_true ht
      exact ⟨holdIssued.written k, hgone holdIssued (.inl rfl)⟩
    · cases ht
  · intro r hr
    rcases mem_rotated hr with ⟨hr, -⟩ | ⟨q, hq, hold, htoken, hstart⟩
    · rw [hlogin r.token (hne r.token (h.present r hr))]
      exact h.logins r hr
    · rw [htoken, hstart, loginOf_concat, ← h.logins q hq, hold]
      exact Function.update_self _ _ _
  · refine forall_split_concat h.final fun t hexchanges hended => ?_
    obtain rfl : old = t := of_decide_eq_true hexchanges
    obtain ⟨r, hr, htoken⟩ := hfound
    exact (h.ended old hended).2 r hr htoken
  · refine forall_split_concat h.within fun old' new' at_ heq => ?_
    cases heq
    exact holdLimit

end Steps

/-! ## The runs -/

/-- A rotation finds the row of its token; an access token whose role was read before a revocation is
signed before the second of its epoch, and so is every access token that is there when an epoch is
written. -/
def InOrder (s : Sessions) : Event → Bool
  | .advance k now iat =>
      match s.ops[k]? with
      | some (.rotate old _ _ _) => ∃ r ∈ s.rows, r.token = old
      | some (.sign _ _ readAt _) =>
          s.revocations ≤ readAt ∨ revokedBy iat (epochSeconds s.user.credentialsChangedAt) = true
      | some .bumpEpoch => ∀ t ∈ s.signed, revokedBy t.iat (epochSeconds now) = true
      | _ => true
  | _ => true

/-- The access tokens whose role was read before a revocation are of an earlier second. -/
def Refused (s : Sessions) : Prop :=
  ∀ t ∈ s.signed, t.readAt < s.revocations →
    revokedBy t.iat (epochSeconds s.user.credentialsChangedAt) = true

structure Kept (policy : Policy) (first : ℕ → Option ℤ) (s : Sessions) (effects : List Effect) :
    Prop where
  tokens : Tokens policy.absoluteMs first s.rows s.next s.ops effects
  refused : Refused s

section Runs

variable {policy : Policy} {first : ℕ → Option ℤ} {s : Sessions} {effects : List Effect}

theorem pending_beginLogin (password : String) :
    (beginLogin policy s password).pending = none ∧
      (beginLogin policy s password).exchanging = none := by
  unfold beginLogin
  split
  · exact ⟨rfl, rfl⟩
  · split
    · exact ⟨rfl, rfl⟩
    · exact ⟨rfl, rfl⟩

theorem pending_beginUpdate (request : UpdateUserRequest) (emailTaken : Bool) :
    (beginUpdate request emailTaken).pending = none ∧
      (beginUpdate request emailTaken).exchanging = none := by
  unfold beginUpdate
  split
  · exact ⟨rfl, rfl⟩
  · split
    · exact ⟨rfl, rfl⟩
    · exact ⟨rfl, rfl⟩

theorem pending_beginChange (currentPassword newHash : String) :
    (beginChange policy s currentPassword newHash).pending = none ∧
      (beginChange policy s currentPassword newHash).exchanging = none := by
  unfold beginChange
  split
  · exact ⟨rfl, rfl⟩
  · exact ⟨rfl, rfl⟩

theorem beginRefresh_cases (policy : Policy) (s : Sessions) (token : ℕ) (verified : Bool) (now : ℤ) :
    (beginRefresh policy s token verified now).pending = none ∧
      ∀ t checkedAt, (beginRefresh policy s token verified now).exchanging = some (t, checkedAt) →
        ∃ r ∈ s.rows, r.token = t ∧ checkedAt ≤ r.start + policy.absoluteMs * 1000 := by
  unfold beginRefresh
  split
  · exact ⟨rfl, nofun⟩
  · split
    · exact ⟨rfl, nofun⟩
    · rename_i r hfind
      split
      · exact ⟨rfl, nofun⟩
      · rename_i hage
        split
        · exact ⟨rfl, nofun⟩
        · refine ⟨rfl, fun t checkedAt heq => ?_⟩
          obtain ⟨rfl, rfl⟩ := Prod.mk.inj (Option.some.inj heq)
          have hfound := List.find?_some hfind
          rw [decide_eq_true_eq] at hfound
          exact ⟨r, List.mem_of_find?_eq_some hfind, hfound.1, by omega⟩

theorem Tokens.begin (h : Tokens policy.absoluteMs first s.rows s.next s.ops effects) {op : Op}
    (hop : op.pending = none ∧ op.exchanging = none) :
    Tokens policy.absoluteMs first s.rows s.next (s.ops ++ [op]) effects :=
  h.start hop.1 fun _ _ heq => nomatch hop.2.symm.trans heq

theorem Tokens.advance (h : Tokens policy.absoluteMs first s.rows s.next s.ops effects) {k : ℕ} {op : Op}
    (hk : s.ops[k]? = some op) (now iat : ℤ) (horder : InOrder s (.advance k now iat) = true) :
    Tokens policy.absoluteMs first (AuthService.advance policy s k now iat op).1.rows
      (AuthService.advance policy s k now iat op).1.next
      (AuthService.advance policy s k now iat op).1.ops
      (effects ++ (AuthService.advance policy s k now iat op).2) := by
  unfold AuthService.advance
  cases op with
  | readUser old checkedAt =>
    dsimp only
    rw [List.append_nil]
    split
    · exact h.set hk rfl fun _ _ heq => heq
    · exact h.set hk rfl nofun
  | expire old =>
    dsimp only
    rw [List.append_nil]
    exact (h.delete List.filter_sublist).set hk rfl nofun
  | readPermissions purpose role readAt =>
    dsimp only
    rw [List.append_nil]
    refine h.set hk rfl fun t checkedAt heq => ?_
    cases purpose with
    | login => cases heq
    | refresh old at_ => exact heq
  | sign purpose role readAt permissions =>
    dsimp only
    rw [List.append_nil]
    cases purpose with
    | login => exact h.sign hk rfl nofun
    | refresh old at_ => exact h.sign hk rfl fun _ _ heq => heq
  | store token expiresAt => exact h.store hk now
  | rotate old checkedAt new expiresAt =>
    unfold InOrder at horder
    dsimp only at horder
    rw [hk] at horder
    exact h.rotate hk (of_decide_eq_true horder) now
  | writePassword newHash =>
    dsimp only
    rw [List.append_nil]
    exact h.set hk rfl nofun
  | writeUser request =>
    dsimp only
    rw [List.append_nil]
    split
    · exact h.set hk rfl nofun
    · exact h.set hk rfl nofun
  | bumpEpoch =>
    dsimp only
    rw [List.append_nil]
    exact h.set hk rfl nofun
  | deleteTokens =>
    have hcleared : Tokens policy.absoluteMs first [] s.next (s.ops.set k (.ended true)) effects :=
      (h.delete (List.nil_sublist s.rows)).set hk rfl nofun
    refine hcleared.note (.inl rfl) fun t ht => ?_
    rcases ended_concat ht with ht | ht | ⟨-, ht⟩
    · exact hcleared.ended t ht
    · cases ht
    · exact ⟨hcleared.stored t ht, fun r hr => absurd hr List.not_mem_nil⟩
  | ended accepted =>
    dsimp only
    rw [List.append_nil]
    exact h

theorem Refused.advance (h : Refused s) {k : ℕ} {op : Op} (hk : s.ops[k]? = some op) (now iat : ℤ)
    (horder : InOrder s (.advance k now iat) = true) :
    Refused (AuthService.advance policy s k now iat op).1 := by
  unfold InOrder at horder
  dsimp only at horder
  rw [hk] at horder
  unfold AuthService.advance
  cases op with
  | sign purpose role readAt permissions =>
    intro t ht hbefore
    rcases List.mem_append.mp ht with ht | ht
    · exact h t ht hbefore
    · obtain rfl := List.mem_singleton.mp ht
      rcases of_decide_eq_true horder with hread | hrevoked
      · exact absurd hbefore (Nat.not_lt.mpr hread)
      · exact hrevoked
  | bumpEpoch => exact fun t ht _ => of_decide_eq_true horder t ht
  | readUser old checkedAt => exact h
  | expire old => exact h
  | readPermissions purpose role readAt => exact h
  | store token expiresAt => exact h
  | rotate old checkedAt new expiresAt => exact h
  | writePassword newHash => exact h
  | writeUser request => exact h
  | deleteTokens => exact h
  | ended accepted => exact h

theorem Refused.revoked (h : Refused s) : Revoked s := by
  intro t ht hbefore
  unfold verifyToken
  rw [h t ht hbefore, Bool.not_true, Bool.and_false]

theorem Kept.step (h : Kept policy first s effects) (e : Event) (horder : InOrder s e = true) :
    Kept policy first (AuthService.step policy s e).1 (effects ++ (AuthService.step policy s e).2) := by
  unfold AuthService.step
  cases e with
  | login password =>
    dsimp only
    rw [List.append_nil]
    exact ⟨h.tokens.begin (pending_beginLogin password), h.refused⟩
  | refresh token verified now =>
    dsimp only
    rw [List.append_nil]
    obtain ⟨hpending, hadmitted⟩ := beginRefresh_cases policy s token verified now
    refine ⟨h.tokens.start hpending fun t checkedAt heq => ?_, h.refused⟩
    obtain ⟨r, hr, rfl, hlimit⟩ := hadmitted t checkedAt heq
    refine ⟨h.tokens.present r hr, fun login hlogin => ?_⟩
    rw [h.tokens.logins r hr] at hlogin
    exact Option.some.inj hlogin ▸ hlimit
  | logout token =>
    dsimp only
    split
    · rename_i hissued
      have hdeleted : Tokens policy.absoluteMs first (s.rows.filter fun r => r.token ≠ token) s.next
          s.ops effects := h.tokens.delete List.filter_sublist
      refine ⟨hdeleted.note (.inr ⟨token, rfl⟩) fun t ht => ?_, h.refused⟩
      rcases ended_concat ht with ht | ht | ⟨ht, -⟩
      · exact hdeleted.ended t ht
      · obtain rfl : token = t := of_decide_eq_true ht
        have hgiven := of_decide_eq_true hissued
        exact ⟨hgiven, fun r hr => of_decide_eq_true (List.mem_filter.mp hr).2⟩
      · cases ht
    · rw [List.append_nil]
      exact h
  | updateUser request emailTaken =>
    dsimp only
    rw [List.append_nil]
    exact ⟨h.tokens.begin (pending_beginUpdate request emailTaken), h.refused⟩
  | changePassword currentPassword newHash =>
    dsimp only
    rw [List.append_nil]
    exact ⟨h.tokens.begin (pending_beginChange currentPassword newHash), h.refused⟩
  | revokeUserTokens =>
    dsimp only
    rw [List.append_nil]
    exact ⟨h.tokens.begin ⟨rfl, rfl⟩, h.refused⟩
  | advance k now iat =>
    dsimp only
    split
    · rw [List.append_nil]
      exact h
    · rename_i op hk
      exact ⟨h.tokens.advance hk now iat horder, h.refused.advance hk now iat horder⟩

theorem Kept.run (h : Kept policy first s effects) {run : List Event}
    (horder : Machine.Always (AuthService.step policy) (fun s e => InOrder s e = true) s run) :
    Kept policy first (after policy s run) (effects ++ AuthService.effects policy s run) := by
  induction run generalizing s effects with
  | nil =>
    unfold AuthService.effects
    rw [Machine.outputs_nil, List.append_nil]
    exact h
  | cons e rest ih =>
    have hrest := ih (h.step e horder.1) horder.2
    unfold AuthService.effects at hrest ⊢
    rw [Machine.outputs_cons, ← List.append_assoc]
    exact hrest

end Runs

def firstLogins (rows : List RefreshToken) (t : ℕ) : Option ℤ :=
  (rows.find? fun r => r.token = t).map RefreshToken.start

theorem firstLogins_of_mem {rows : List RefreshToken} (h : (rows.map RefreshToken.token).Nodup)
    {r : RefreshToken} (hr : r ∈ rows) : firstLogins rows r.token = some r.start := by
  unfold firstLogins
  cases hfind : rows.find? fun q => q.token = r.token with
  | none =>
    have hnone := List.find?_eq_none.mp hfind r hr
    exact absurd (decide_eq_true rfl) hnone
  | some q =>
    have hq := List.find?_some hfind
    rw [decide_eq_true_eq] at hq
    rw [List.inj_on_of_nodup_map h (List.mem_of_find?_eq_some hfind) hr hq]
    rfl

def opened (user : User) (rows : List RefreshToken) (next : ℕ) : Sessions :=
  { user := user, rows := rows, next := next }

/-- After any steps in order no token pair was issued for a token that had ended, access tokens of
before a revocation are refused, and every refresh was within the absolute limit of its login. -/
theorem sessions_end (policy : Policy) (user : User) (rows : List RefreshToken) (next : ℕ)
    (hnodup : (rows.map RefreshToken.token).Nodup) (hbelow : ∀ r ∈ rows, r.token < next)
    (run : List Event)
    (horder : Machine.Always (step policy) (fun s e => InOrder s e = true) (opened user rows next)
      run) :
    EndsAreFinal (effects policy (opened user rows next) run) ∧
      Revoked (after policy (opened user rows next) run) ∧
      WithinLimit policy.absoluteMs (firstLogins rows)
        (effects policy (opened user rows next) run) := by
  have hstart : Kept policy (firstLogins rows) (opened user rows next) [] := by
    refine ⟨⟨hnodup, fun r hr => ⟨hbelow r hr, ?_⟩, ?_, ?_, ?_, ?_, ?_,
      fun r hr => firstLogins_of_mem hnodup hr, ?_, ?_⟩, ?_⟩
    · exact List.forall_mem_nil _
    · exact List.forall_mem_nil _
    · exact fun i j p q t hi => absurd (List.mem_of_getElem? hi) List.not_mem_nil
    · exact List.forall_mem_nil _
    · rintro t ⟨e, he, -⟩
      exact absurd he List.not_mem_nil
    · rintro t (⟨e, he, -⟩ | ⟨pre, post, heq, -⟩)
      · exact absurd he List.not_mem_nil
      · exact absurd heq.symm (List.append_ne_nil_of_right_ne_nil pre (List.cons_ne_nil _ _))
    · exact fun pre e post heq =>
        absurd heq.symm (List.append_ne_nil_of_right_ne_nil pre (List.cons_ne_nil _ _))
    · exact fun pre e post heq =>
        absurd heq.symm (List.append_ne_nil_of_right_ne_nil pre (List.cons_ne_nil _ _))
    · exact List.forall_mem_nil _
  have hkept := hstart.run horder
  rw [List.nil_append] at hkept
  exact ⟨hkept.tokens.final, hkept.refused.revoked, hkept.tokens.within⟩

def halfDay : Policy :=
  { absoluteMs := 43200000, idleMs := fun _ => 1800000, refreshTtl := 604800,
    permissionKeys := fun _ => ["alarms.view"], passwordMatches := fun password hash => password = hash }

def operator : Sessions :=
  opened ⟨"op@site", none, "Operator", true, "secret", 1780000000000000⟩ [] 0

def queries (k n : ℕ) (seconds : ℤ) : List Event :=
  List.replicate n (.advance k ((1790000000 + seconds) * 1000000) (1790000000 + seconds))

def signIn : List Event := .login "secret" :: queries 0 3 0

def refreshedAndRevoked : List Event :=
  signIn ++ [.refresh 0 true 1790000060000000] ++ queries 1 4 60 ++ [.revokeUserTokens] ++
    queries 2 2 120

theorem sessions_end_revoked :
    (effects halfDay operator refreshedAndRevoked).length = 3 ∧
      EndsAreFinal (effects halfDay operator refreshedAndRevoked) ∧
      Revoked (after halfDay operator refreshedAndRevoked) ∧
      WithinLimit halfDay.absoluteMs (firstLogins [])
        (effects halfDay operator refreshedAndRevoked) :=
  ⟨by decide, sessions_end halfDay ⟨"op@site", none, "Operator", true, "secret",
    1780000000000000⟩ [] 0 .nil (List.forall_mem_nil _) refreshedAndRevoked (by decide)⟩

def refreshedTwice : List Event :=
  signIn ++ [.refresh 0 true 1790000060000000, .refresh 0 true 1790000060000000] ++ queries 1 4 60 ++
    queries 2 4 60

def loggedOutMeanwhile : List Event :=
  signIn ++ [.refresh 0 true 1790000060000000, .logout 0] ++ queries 1 4 60

def revokedAtOnce : List Event := signIn ++ [.revokeUserTokens] ++ queries 1 2 0

/-- A token is exchanged twice, and after its logout; and an access token outlives a revocation. -/
theorem sessions_survive : (¬ ∀ run, EndsAreFinal (effects halfDay operator run)) ∧
    (∃ run pre post, effects halfDay operator run = pre ++ .loggedOut 0 :: post ∧
      ∃ e ∈ post, e.exchanges 0 = true) ∧
    ¬ ∀ run, Revoked (after halfDay operator run) := by
  refine ⟨fun h => ?_, ?_, fun h => ?_⟩
  · have heffects : effects halfDay operator refreshedTwice =
        [.stored 0 1790000000000000, .exchanged 0 1 1790000060000000] ++
          .exchanged 0 2 1790000060000000 :: [] := by decide
    refine h refreshedTwice _ _ _ heffects 0 rfl (.inl ⟨.exchanged 0 1 1790000060000000, ?_, rfl⟩)
    exact List.mem_cons_of_mem _ List.mem_cons_self
  · have heffects : effects halfDay operator loggedOutMeanwhile =
        [.stored 0 1790000000000000] ++ .loggedOut 0 :: [.exchanged 0 1 1790000060000000] := by
      decide
    exact ⟨loggedOutMeanwhile, _, _, heffects, _, List.mem_cons_self, rfl⟩
  · have hrevoked := h revokedAtOnce
    unfold Revoked at hrevoked
    revert hrevoked
    decide

end AuthService

end OpenBridge.Auth
