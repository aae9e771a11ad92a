import OpenBridge.Foundation.Machine
import OpenBridge.GateConfig.CanonicalJson

/-!
# Gateway: the response cache

`ResponseCacheMiddleware`.  A run is any interleaving of the steps of the requests: the reads and
writes of the cache, what the service behind the gateway does, and the keys that a sweep finds one
after the other.

The service is seen through one number for each class: how many writes have taken effect.  An entry
remembers the number at which its body was computed; the code has no such field.
-/

namespace OpenBridge.Gateway

open OpenBridge.Foundation
open OpenBridge.GateConfig (CanonicalJson.keyLe CanonicalJson.sha256Hex)

/-- `CacheRule`.  Entries may expire at any time, so the time to live is left out. -/
structure CacheRule where
  name : String
  route : String
  deriving DecidableEq

/-- `_rules`. -/
def cacheRules : List CacheRule :=
  [⟨"assets", "/api/assets"⟩,
    ⟨"assets", "/api/aliases"⟩,
    ⟨"displays", "/api/displays"⟩,
    ⟨"bindings", "/api/bindings/resolve"⟩,
    ⟨"hist", "/api/hist/trend"⟩,
    ⟨"hist", "/api/hist/summary"⟩,
    ⟨"templates", "/api/templates"⟩]

def startsWithSegments (path other : String) : Bool :=
  startsWith (toUpperInvariant path) (toUpperInvariant other) &&
    (path.length == other.length || (path.toList.drop other.length).head? == some '/')

def ruleOf (path : String) : Option CacheRule :=
  cacheRules.find? fun rule => startsWithSegments path rule.route

structure CacheRequest where
  method : String
  path : String
  queryString : String
  sub : Option String
  permissions : List String
  deriving DecidableEq

/-- `cache:{class}:{query}:{scope}`, by its parts. -/
structure CacheKey where
  className : String
  query : String
  scope : String
  deriving DecidableEq

/-- `Sha256`: the first 24 digits. -/
def shortSha256 (text : String) : String :=
  String.ofList ((CanonicalJson.sha256Hex text).toList.take 24)

def scopeOf (request : CacheRequest) : String :=
  shortSha256 (request.sub.getD "anon" ++ "|" ++
    ",".intercalate (request.permissions.mergeSort CanonicalJson.keyLe))

def buildKey (request : CacheRequest) (rule : CacheRule) : CacheKey :=
  ⟨rule.name, shortSha256 (request.path ++ request.queryString), scopeOf request⟩

/-- What the service answers to a `GET`. -/
structure UpstreamResponse where
  statusCode : ℕ
  contentType : Option String
  body : String
  deriving DecidableEq

def UpstreamResponse.payload (response : UpstreamResponse) : String :=
  response.contentType.getD "application/json" ++ "\n" ++ response.body

structure CacheEntry where
  payload : String
  computedAt : ℕ
  deriving DecidableEq

def CacheEntry.answer (entry : CacheEntry) : String × String :=
  let raw := entry.payload.toList
  let sep := raw.findIdx (· == '\n')
  if 0 < sep ∧ sep < raw.length then
    (String.ofList (raw.take sep), String.ofList (raw.drop (sep + 1)))
  else ("application/json", entry.payload)

/-- How far a `GET` on a cached route has come. -/
inductive GetPhase
  /-- In `StringGetAsync`. -/
  | reading
  /-- Forwarded, and not computed yet. -/
  | forwarded
  /-- Computed while the class showed so many writes. -/
  | computed (response : UpstreamResponse) (computedAt : ℕ)
  deriving DecidableEq

/-- A `GET` under way, and the writes whose answers its caller had when it began. -/
structure CachedGet where
  key : CacheKey
  since : ℕ
  phase : GetPhase
  deriving DecidableEq

/-- A mutation under way: the number of its write once it has taken effect, and the keys that its
sweep still has to find once it has begun. -/
structure CachedMutation where
  scope : String
  className : String
  effect : Option ℕ
  sweeping : Option (List CacheKey)
  deriving DecidableEq

/-- The cache, the requests under way, and for each class its number of writes.  The last two fields
are none of the code's: the latest write of a caller whose sweep has begun, and the latest that was
answered. -/
structure ResponseCache where
  cache : Dict CacheKey CacheEntry
  gets : List CachedGet
  mutations : List CachedMutation
  version : String → ℕ
  begun : String → String → ℕ
  returned : String → String → ℕ

structure CacheHit where
  key : CacheKey
  since : ℕ
  entry : CacheEntry
  deriving DecidableEq

/-- What happens at the gateway. -/
inductive CacheEvent
  /-- A request arrives, with the cache connected or not. -/
  | began (request : CacheRequest) (connected : Bool)
  /-- `StringGetAsync` answers, or throws. -/
  | read (get : CachedGet) (reached : Bool)
  /-- The service computes the response to a `GET`. -/
  | computed (get : CachedGet) (response : UpstreamResponse)
  /-- The response is stored, or `StringSetAsync` fails; or it is not to be stored. -/
  | stored (get : CachedGet) (reached : Bool)
  /-- A write takes effect in the service. -/
  | tookEffect (mutation : CachedMutation)
  /-- The service answers a mutation. -/
  | answered (mutation : CachedMutation) (statusCode : ℕ)
  /-- The sweep finds a key and deletes it; nobody waits for the deletion, and it may be lost. -/
  | deleted (mutation : CachedMutation) (key : CacheKey) (reached : Bool)
  /-- The sweep has found every key that was there throughout; the answer is returned. -/
  | swept (mutation : CachedMutation)
  /-- The sweep fails; the answer is returned. -/
  | sweepFailed (mutation : CachedMutation)
  /-- An entry expires, or is deleted by something else. -/
  | expired (key : CacheKey)
  deriving DecidableEq

namespace ResponseCache

def new : ResponseCache := ⟨.empty, [], [], fun _ => 0, fun _ _ => 0, fun _ _ => 0⟩

def note (writes : String → String → ℕ) (mutation : CachedMutation) : String → String → ℕ :=
  fun scope className =>
    if scope = mutation.scope ∧ className = mutation.className then
      max (writes scope className) (mutation.effect.getD 0)
    else writes scope className

def finish (s : ResponseCache) (mutation : CachedMutation) : ResponseCache :=
  { s with
    mutations := s.mutations.erase mutation
    returned := note s.returned mutation }

/-- One event.  An event about a request that is not under way, or not at this point, changes
nothing. -/
def step (s : ResponseCache) : CacheEvent → ResponseCache × List CacheHit
  | .began request connected =>
      match ruleOf request.path with
      | none => (s, [])
      | some rule =>
          if request.method ≠ "GET" then
            ({ s with mutations := ⟨scopeOf request, rule.name, none, none⟩ :: s.mutations }, [])
          else if connected then
            let key := buildKey request rule
            ({ s with gets := ⟨key, s.returned key.scope key.className, .reading⟩ :: s.gets }, [])
          else (s, [])
  | .read get reached =>
      if get ∈ s.gets ∧ get.phase = .reading then
        let gets := s.gets.erase get
        if reached then
          match s.cache.get? get.key with
          | some entry => ({ s with gets := gets }, [⟨get.key, get.since, entry⟩])
          | none => ({ s with gets := { get with phase := .forwarded } :: gets }, [])
        -- a failed read bypasses the cache
        else ({ s with gets := gets }, [])
      else (s, [])
  | .computed get response =>
      if get ∈ s.gets ∧ get.phase = .forwarded then
        ({ s with
            gets := { get with phase := .computed response (s.version get.key.className) } ::
              s.gets.erase get }, [])
      else (s, [])
  | .stored get reached =>
      match get.phase with
      | .computed response computedAt =>
          if get ∈ s.gets then
            let gets := s.gets.erase get
            if response.statusCode = 200 ∧ response.body ≠ "" ∧ reached then
              ({ s with
                  gets := gets
                  cache := s.cache.set get.key ⟨response.payload, computedAt⟩ }, [])
            else ({ s with gets := gets }, [])
          else (s, [])
      | _ => (s, [])
  | .tookEffect mutation =>
      if mutation ∈ s.mutations ∧ mutation.sweeping = none then
        let write := s.version mutation.className + 1
        ({ s with
            version := Function.update s.version mutation.className write
            mutations := { mutation with effect := some write } :: s.mutations.erase mutation }, [])
      else (s, [])
  | .answered mutation statusCode =>
      if mutation ∈ s.mutations ∧ mutation.sweeping = none then
        if statusCode < 400 then
          let keys := s.cache.keys.filter fun key => key.className = mutation.className
          ({ s with
              mutations := { mutation with sweeping := some keys } :: s.mutations.erase mutation
              begun := note s.begun mutation }, [])
        else (s.finish mutation, [])
      else (s, [])
  | .deleted mutation key reached =>
      match mutation.sweeping with
      | some keys =>
          if mutation ∈ s.mutations ∧ key.className = mutation.className then
            let left := keys.filter (· ≠ key)
            ({ s with
                cache := if reached then s.cache.erase key else s.cache
                mutations := { mutation with sweeping := some left } ::
                  s.mutations.erase mutation }, [])
          else (s, [])
      | none => (s, [])
  | .swept mutation =>
      if mutation ∈ s.mutations ∧ mutation.sweeping = some [] then (s.finish mutation, [])
      else (s, [])
  | .sweepFailed mutation =>
      if mutation ∈ s.mutations ∧ mutation.sweeping.isSome then (s.finish mutation, [])
      else (s, [])
  | .expired key => ({ s with cache := s.cache.erase key }, [])

end ResponseCache

end OpenBridge.Gateway
