import Mathlib.Data.Int.Notation
import OpenBridge.Foundation.Machine

/-!
# Auth: the sessions of a user

`AuthService` over the row of one user and the rows of its refresh tokens.  A refresh token is the
number of its signature: a caller presents a token that it was given.  Times of the database are
microseconds, `iat` is in seconds.
-/

namespace OpenBridge.Auth

open OpenBridge.Foundation

/-- The row of the user in `users`. -/
structure User where
  email : String
  fullName : Option String
  role : String
  isActive : Bool
  passwordHash : String
  credentialsChangedAt : ℤ
  deriving DecidableEq

/-- A row of `refresh_tokens`. -/
structure RefreshToken where
  token : ℕ
  expiresAt : ℤ
  createdAt : ℤ
  lastUsedAt : Option ℤ
  sessionStartedAt : Option ℤ
  deriving DecidableEq

namespace RefreshToken

/-- `COALESCE(rt.session_started_at, rt.created_at)`. -/
def start (r : RefreshToken) : ℤ := r.sessionStartedAt.getD r.createdAt

/-- `COALESCE(rt.last_used_at, rt.created_at)`. -/
def idleSince (r : RefreshToken) : ℤ := r.lastUsedAt.getD r.createdAt

end RefreshToken

/-- The claims of an access token, with the number of revocations when its role was read. -/
structure AccessToken where
  iat : ℤ
  role : String
  permissions : List String
  readAt : ℕ
  deriving DecidableEq

structure UpdateUserRequest where
  email : Option String
  fullName : Option String
  role : Option String
  isActive : Option Bool
  deriving DecidableEq

/-- The settings of the service, the permissions of the roles, and the check of a password. -/
structure Policy where
  absoluteMs : ℤ
  idleMs : String → ℤ
  refreshTtl : ℤ
  permissionKeys : String → List String
  passwordMatches : String → String → Bool

namespace AuthService

inductive Purpose where
  | login
  /-- a refresh of a token, whose row was read at a time -/
  | refresh (old : ℕ) (checkedAt : ℤ)
  deriving DecidableEq

/-- The next query of an operation. -/
inductive Op where
  | readUser (old : ℕ) (checkedAt : ℤ)
  | expire (old : ℕ)
  | readPermissions (purpose : Purpose) (role : String) (readAt : ℕ)
  | sign (purpose : Purpose) (role : String) (readAt : ℕ) (permissions : List String)
  | store (token : ℕ) (expiresAt : ℤ)
  | rotate (old : ℕ) (checkedAt : ℤ) (new : ℕ) (expiresAt : ℤ)
  | writePassword (newHash : String)
  | writeUser (request : UpdateUserRequest)
  | bumpEpoch
  | deleteTokens
  | ended (accepted : Bool)
  deriving DecidableEq

def Op.pending : Op → Option ℕ
  | store token _ => some token
  | rotate _ _ new _ => some new
  | _ => none

/-- The user, its refresh tokens, the access tokens and the operations so far. -/
structure Sessions where
  user : User
  rows : List RefreshToken
  /-- the number of the next refresh token -/
  next : ℕ
  revocations : ℕ := 0
  signed : List AccessToken := []
  ops : List Op := []

/-- The start of an operation, or its next query, with the clock of the database and of the service. -/
inductive Event where
  | login (password : String)
  | refresh (token : ℕ) (verified : Bool) (now : ℤ)
  | logout (token : ℕ)
  | updateUser (request : UpdateUserRequest) (emailTaken : Bool)
  | changePassword (currentPassword newHash : String)
  | revokeUserTokens
  | advance (k : ℕ) (now iat : ℤ)
  deriving DecidableEq

inductive Effect where
  | stored (token : ℕ) (now : ℤ)
  /-- a token pair is issued for a token whose row was read at a time -/
  | exchanged (old new : ℕ) (checkedAt : ℤ)
  | loggedOut (token : ℕ)
  | revoked
  deriving DecidableEq

/-- `EXTRACT(EPOCH FROM ...)::bigint`: the nearest second, halves away from zero. -/
def epochSeconds (t : ℤ) : ℤ :=
  if 0 ≤ t then (t + 500000) / 1000000 else -((500000 - t) / 1000000)

/-- The comparison of `verifyToken`. -/
def revokedBy (iat changed : ℤ) : Bool := iat ≠ 0 ∧ changed ≠ 0 ∧ iat < changed

/-- `verifyToken`, for a token whose signature is valid. -/
def verifyToken (s : Sessions) (t : AccessToken) : Bool :=
  s.user.isActive && !revokedBy t.iat (epochSeconds s.user.credentialsChangedAt)

def Sessions.issued (s : Sessions) (token : ℕ) : Bool :=
  token < s.next ∧ ∀ op ∈ s.ops, op.pending ≠ some token

/-- `UPDATE users` of `updateUser`. -/
def updatedUser (req : UpdateUserRequest) (u : User) : User :=
  { u with
    email := req.email.getD u.email
    fullName := match req.fullName with
      | none => u.fullName
      | some name => if name = "" then none else some name
    role := req.role.getD u.role
    isActive := req.isActive.getD u.isActive }

/-- `UPDATE refresh_tokens` of `refreshToken`. -/
def rotated (rows : List RefreshToken) (old new : ℕ) (expiresAt now : ℤ) : List RefreshToken :=
  rows.map fun r =>
    if r.token = old then { r with token := new, expiresAt := expiresAt, lastUsedAt := some now } else r

section Steps

variable (policy : Policy)

/-- `login` up to its read of the user. -/
def beginLogin (s : Sessions) (password : String) : Op :=
  if s.user.isActive = false then .ended false
  else if policy.passwordMatches password s.user.passwordHash = false then .ended false
  else .readPermissions .login s.user.role s.revocations

/-- `refreshToken` up to its read of the row. -/
def beginRefresh (s : Sessions) (token : ℕ) (verified : Bool) (now : ℤ) : Op :=
  if verified = false then .ended false
  else
    match s.rows.find? fun r => r.token = token ∧ now < r.expiresAt with
    | none => .ended false
    | some r =>
        if policy.absoluteMs * 1000 < now - r.start then .expire token
        else if policy.idleMs s.user.role * 1000 < now - r.idleSince then .expire token
        else .readUser token now

/-- `updateUser` up to its update. -/
def beginUpdate (request : UpdateUserRequest) (emailTaken : Bool) : Op :=
  if request.email.isSome = true ∧ emailTaken = true then .ended false
  else if request = ⟨none, none, none, none⟩ then .ended false
  else .writeUser request

/-- `changePassword` up to its update. -/
def beginChange (s : Sessions) (currentPassword newHash : String) : Op :=
  if policy.passwordMatches currentPassword s.user.passwordHash = false then .ended false
  else .writePassword newHash

def write (s : Sessions) (iat : ℤ) : Purpose → Op
  | .login => .store s.next ((iat + policy.refreshTtl) * 1000000)
  | .refresh old checkedAt => .rotate old checkedAt s.next ((iat + policy.refreshTtl) * 1000000)

/-- One query of an operation. -/
def advance (s : Sessions) (k : ℕ) (now iat : ℤ) : Op → Sessions × List Effect
  | .readUser old checkedAt =>
      ({ s with
        ops := s.ops.set k (if s.user.isActive = true then
          .readPermissions (.refresh old checkedAt) s.user.role s.revocations else .ended false) }, [])
  | .expire old =>
      ({ s with rows := s.rows.filter fun r => r.token ≠ old, ops := s.ops.set k (.ended false) }, [])
  | .readPermissions purpose role readAt =>
      ({ s with ops := s.ops.set k (.sign purpose role readAt (policy.permissionKeys role)) }, [])
  | .sign purpose role readAt permissions =>
      ({ s with
        next := s.next + 1
        signed := s.signed ++ [⟨iat, role, permissions, readAt⟩]
        ops := s.ops.set k (write policy s iat purpose) }, [])
  | .store token expiresAt =>
      ({ s with
        rows := s.rows ++ [⟨token, expiresAt, now, some now, some now⟩]
        ops := s.ops.set k (.ended true) }, [.stored token now])
  | .rotate old checkedAt new expiresAt =>
      -- the number of the rows that the update finds is not looked at
      ({ s with
        rows := rotated s.rows old new expiresAt now
        ops := s.ops.set k (.ended true) }, [.exchanged old new checkedAt])
  | .writePassword newHash =>
      ({ s with
        user := { s.user with passwordHash := newHash }
        ops := s.ops.set k .bumpEpoch }, [])
  | .writeUser request =>
      ({ s with
        user := updatedUser request s.user
        ops := s.ops.set k (if request.role.isSome = true ∨ request.isActive.isSome = true then
          .bumpEpoch else .ended true) }, [])
  | .bumpEpoch =>
      ({ s with
        user := { s.user with credentialsChangedAt := now }
        revocations := s.revocations + 1
        ops := s.ops.set k .deleteTokens }, [])
  | .deleteTokens => ({ s with rows := [], ops := s.ops.set k (.ended true) }, [.revoked])
  | .ended _ => (s, [])

def step (s : Sessions) : Event → Sessions × List Effect
  | .login password => ({ s with ops := s.ops ++ [beginLogin policy s password] }, [])
  | .refresh token verified now =>
      ({ s with ops := s.ops ++ [beginRefresh policy s token verified now] }, [])
  | .logout token =>
      if s.issued token = true then
        ({ s with rows := s.rows.filter fun r => r.token ≠ token }, [.loggedOut token])
      else (s, [])
  | .updateUser request emailTaken =>
      ({ s with ops := s.ops ++ [beginUpdate request emailTaken] }, [])
  | .changePassword currentPassword newHash =>
      ({ s with ops := s.ops ++ [beginChange policy s currentPassword newHash] }, [])
  | .revokeUserTokens => ({ s with ops := s.ops ++ [.bumpEpoch] }, [])
  | .advance k now iat =>
      match s.ops[k]? with
      | none => (s, [])
      | some op => advance policy s k now iat op

def after (s : Sessions) (run : List Event) : Sessions := Machine.stateAfter (step policy) s run

def effects (s : Sessions) (run : List Event) : List Effect := Machine.outputs (step policy) s run

end Steps

end AuthService

end OpenBridge.Auth
