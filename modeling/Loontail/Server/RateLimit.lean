import Loontail.Sliding.Keyed
import Loontail.Sliding.Window
import Mathlib.Algebra.Group.Nat.Defs
import Mathlib.Data.List.Dedup
import Mathlib.Data.List.Induction

/-! # The credential rate limiter

One sliding window for each client key, all under one lock, so a run is a
sequence of calls. Idle keys are swept once a window, and at the cap the stalest
keys make room. -/

namespace Loontail.Server

open Sliding

/-- Instants are nanoseconds since the earliest one the clock can represent. -/
def checkedSub (now span : Nat) : Option Nat :=
  if span ≤ now then some (now - span) else none

inductive IpAddr where
  | v4 (octets : BitVec 32)
  | v6 (octets : BitVec 128)
deriving DecidableEq, Repr

/-- The derived order: every IPv4 address, then every IPv6 address. -/
def IpAddr.rank : IpAddr → Nat
  | .v4 octets => octets.toNat
  | .v6 octets => 2 ^ 32 + octets.toNat

/-- An IPv4 address as it is, an IPv6 address cut to its /64 prefix. -/
def limiterKey : IpAddr → IpAddr
  | .v4 octets => .v4 octets
  | .v6 octets => .v6 (octets.extractLsb' 64 64 ++ 0#64)

structure RateLimitConfig where
  maxAttempts : Nat
  window : Nat
deriving Repr

def maxTrackedIps : Nat := 100000

def evictBatch : Nat := maxTrackedIps / 10

structure Buckets where
  map : Keyed IpAddr (List Nat)
  lastSweep : Option Nat

namespace Buckets

def default : Buckets := ⟨∅, none⟩

def sweepDue (buckets : Buckets) (now window : Nat) : Bool :=
  match buckets.lastSweep with
  | some previous => window ≤ now - previous
  | none => true

/-- At most once a window, drop every bucket whose newest hit has left it. -/
def sweepIfDue (buckets : Buckets) (now cutoff window : Nat) : Buckets :=
  if buckets.sweepDue now window then
    { map := buckets.map.retain fun _ bucket => bucket.getLast?.any (cutoff < ·)
      lastSweep := some now }
  else buckets

/-- The order of pairs: by the newest hit, no hit at all before any, then by the key. -/
def staler : Option Nat × IpAddr → Option Nat × IpAddr → Bool
  | (none, left), (none, right) => left.rank ≤ right.rank
  | (none, _), (some _, _) => true
  | (some _, _), (none, _) => false
  | (some hit, left), (some other, right) =>
      hit < other || (hit = other && left.rank ≤ right.rank)

/-- Drop the `count` least recently active keys. -/
def evictStalest (buckets : Buckets) (count : Nat) : Buckets :=
  let count := min count buckets.map.size
  { buckets with
    map := buckets.map.eraseAll (buckets.map.first staler List.getLast? count) }

/-- At the cap, room for a key that is not tracked yet. -/
def makeRoom (buckets : Buckets) (key : IpAddr) : Buckets :=
  if maxTrackedIps ≤ buckets.map.size ∧ key ∉ buckets.map then
    buckets.evictStalest evictBatch
  else buckets

/-- The bucket of a key, `or_default`. -/
def bucket (buckets : Buckets) (key : IpAddr) : List Nat :=
  (buckets.map.lookup key).getD []

end Buckets

def RateLimitConfig.cutoff (config : RateLimitConfig) (now : Nat) : Nat :=
  (checkedSub now config.window).getD now

/-- The map as a call at `now` finds it: swept, and with room for its key. -/
def Buckets.prepare (buckets : Buckets) (config : RateLimitConfig) (key : IpAddr)
    (now : Nat) : Buckets :=
  (buckets.sweepIfDue now (config.cutoff now) config.window).makeRoom key

/-- `check_at`: whether the attempt is admitted, and the limiter after it. -/
def Buckets.checkAt (buckets : Buckets) (config : RateLimitConfig) (ip : IpAddr)
    (now : Nat) : Bool × Buckets :=
  let key := limiterKey ip
  let ready := buckets.prepare config key now
  let (admitted, hits) :=
    attempt config.maxAttempts (config.cutoff now) now (ready.bucket key)
  (admitted, { ready with map := ready.map.insert key hits })

/-! ## Runs -/

/-- A call of `check_at`. -/
structure Attempt where
  ip : IpAddr
  now : Nat
deriving DecidableEq, Repr

structure Admission where
  key : IpAddr
  time : Nat
deriving DecidableEq, Repr

structure Trail where
  admitted : List Admission
  decisions : List Bool
deriving DecidableEq, Repr

namespace Trail

def empty : Trail := ⟨[], []⟩

def record (trail : Trail) (call : Attempt) (admits : Bool) : Trail where
  admitted := if admits then trail.admitted ++ [⟨limiterKey call.ip, call.now⟩]
    else trail.admitted
  decisions := trail.decisions ++ [admits]

def admissions (trail : Trail) (key : IpAddr) : List Nat :=
  (trail.admitted.filter (·.key = key)).map (·.time)

end Trail

structure Run where
  buckets : Buckets
  trail : Trail

def Run.step (config : RateLimitConfig) (run : Run) (call : Attempt) : Run :=
  let (admits, buckets) := run.buckets.checkAt config call.ip call.now
  ⟨buckets, run.trail.record call admits⟩

def Run.of (config : RateLimitConfig) (calls : List Attempt) : Run :=
  calls.foldl (Run.step config) ⟨.default, .empty⟩

theorem Run.of_append (config : RateLimitConfig) (calls : List Attempt) (call : Attempt) :
    Run.of config (calls ++ [call]) = Run.step config (Run.of config calls) call := by
  rw [Run.of, List.foldl_append]
  rfl

def keysOf (calls : List Attempt) : List IpAddr :=
  (calls.map fun call => limiterKey call.ip).dedup

theorem mem_keysOf {calls : List Attempt} {key : IpAddr} :
    key ∈ keysOf calls ↔ ∃ call ∈ calls, limiterKey call.ip = key := by
  rw [keysOf, List.mem_dedup, List.mem_map]

theorem length_keysOf_le {calls more : List Attempt}
    (touched : ∀ call ∈ calls, ∃ other ∈ more, limiterKey other.ip = limiterKey call.ip) :
    (keysOf calls).length ≤ (keysOf more).length := by
  apply List.Subperm.length_le
  apply (List.nodup_dedup _).subperm
  intro key member
  rcases mem_keysOf.mp member with ⟨call, among, rfl⟩
  exact mem_keysOf.mpr (touched call among)

def Ordered (calls : List Attempt) : Prop :=
  calls.Pairwise fun earlier later => earlier.now ≤ later.now

instance (calls : List Attempt) : Decidable (Ordered calls) :=
  inferInstanceAs (Decidable (calls.Pairwise _))

theorem ordered_append {calls : List Attempt} {call : Attempt} :
    Ordered (calls ++ [call]) ↔
      Ordered calls ∧ ∀ earlier ∈ calls, earlier.now ≤ call.now := by
  simp [Ordered, List.pairwise_append]

theorem exists_clock (calls : List Attempt) :
    ∃ clock, ∀ call ∈ calls, call.now ≤ clock := by
  induction calls with
  | nil => exact ⟨0, by simp⟩
  | cons call rest induction =>
      rcases induction with ⟨clock, past⟩
      refine ⟨max call.now clock, ?_⟩
      intro one member
      rcases List.mem_cons.mp member with rfl | later
      · exact le_max_left _ _
      · exact le_trans (past one later) (le_max_right _ _)

namespace Trail

theorem admissions_record (trail : Trail) (call : Attempt) (admits : Bool) (key : IpAddr) :
    (trail.record call admits).admissions key =
      trail.admissions key ++
        if admits = true ∧ limiterKey call.ip = key then [call.now] else [] := by
  cases admits
  · simp [record, admissions]
  · by_cases same : limiterKey call.ip = key
    · simp [record, admissions, same]
    · simp [record, admissions, same]

end Trail

/-! ## What the parts of a call do to the map -/

namespace Buckets

variable {buckets : Buckets} {key other : IpAddr} {hits : List Nat}
  {now cutoff window count : Nat}

theorem bucket_of_lookup (found : buckets.map.lookup key = some hits) :
    buckets.bucket key = hits := by
  rw [bucket, found, Option.getD_some]

theorem bucket_of_not_mem (absent : key ∉ buckets.map) : buckets.bucket key = [] := by
  rw [bucket, AList.lookup_eq_none.mpr absent, Option.getD_none]

theorem lookup_of_sweepIfDue
    (found : (buckets.sweepIfDue now cutoff window).map.lookup key = some hits) :
    buckets.map.lookup key = some hits := by
  rw [sweepIfDue] at found
  split at found
  · exact (Keyed.lookup_retain.mp found).1
  · exact found

/-- A sweep drops a key only when no hit of it is after the cutoff. -/
theorem stale_of_sweepIfDue (tidy : hits.Pairwise (· ≤ ·))
    (found : buckets.map.lookup key = some hits)
    (dropped : key ∉ (buckets.sweepIfDue now cutoff window).map) :
    ∀ hit ∈ hits, hit ≤ cutoff := by
  rw [sweepIfDue] at dropped
  split at dropped
  · cases last : hits.getLast? with
    | none => simp [List.getLast?_eq_none_iff.mp last]
    | some newest =>
        by_cases old : newest ≤ cutoff
        · intro hit member
          exact le_trans (le_of_getLast? tidy last hit member) old
        · have kept : (buckets.map.retain fun _ bucket =>
              bucket.getLast?.any (cutoff < ·)).lookup key = some hits :=
            Keyed.lookup_retain.mpr ⟨found, by simpa [last] using old⟩
          exact absurd (Keyed.mem_of_lookup kept) dropped
  · exact absurd (Keyed.mem_of_lookup found) dropped

theorem size_sweepIfDue :
    (buckets.sweepIfDue now cutoff window).map.size ≤ buckets.map.size := by
  rw [sweepIfDue]
  split
  · exact Keyed.size_retain _ _
  · exact le_rfl

theorem lookup_of_evictStalest
    (found : (buckets.evictStalest count).map.lookup key = some hits) :
    buckets.map.lookup key = some hits := by
  rw [evictStalest, Keyed.lookup_eraseAll] at found
  split at found
  · cases found
  · exact found

theorem size_evictStalest :
    (buckets.evictStalest count).map.size = buckets.map.size - count := by
  rw [evictStalest, Keyed.size_eraseAll (Keyed.first_nodup _ _ _ _),
    Keyed.length_first (min_le_right _ _)]
  · omega
  · intro member ranked
    rcases Keyed.mem_of_mem_first ranked with ⟨_, found, -⟩
    exact Keyed.mem_of_lookup found

theorem staler_trans (a b c : Option Nat × IpAddr) (first : staler a b)
    (second : staler b c) : staler a c := by
  rcases a with ⟨_ | a, p⟩ <;> rcases b with ⟨_ | b, q⟩ <;> rcases c with ⟨_ | c, r⟩ <;>
    simp [staler] at first second ⊢ <;> omega

theorem staler_total (a b : Option Nat × IpAddr) : (staler a b || staler b a) = true := by
  rcases a with ⟨_ | a, p⟩ <;> rcases b with ⟨_ | b, q⟩ <;> simp [staler] <;> omega

/-- An evicted key is no fresher than any key that stays. -/
theorem staler_of_evictStalest {kept : List Nat}
    (found : buckets.map.lookup key = some hits)
    (evicted : key ∉ (buckets.evictStalest count).map)
    (stays : (buckets.evictStalest count).map.lookup other = some kept) :
    staler (hits.getLast?, key) (kept.getLast?, other) := by
  rw [evictStalest, Keyed.mem_eraseAll] at evicted
  rw [evictStalest, Keyed.lookup_eraseAll] at stays
  split at stays
  · cases stays
  · rename_i unranked
    have ranked : key ∈ buckets.map.first staler List.getLast?
        (min count buckets.map.size) := by
      by_contra outside
      exact evicted ⟨outside, Keyed.mem_of_lookup found⟩
    rcases Keyed.before_of_first staler_trans staler_total ranked unranked stays with
      ⟨own, ownFound, before⟩
    rw [found] at ownFound
    cases ownFound
    exact before

theorem lookup_of_makeRoom
    (found : (buckets.makeRoom other).map.lookup key = some hits) :
    buckets.map.lookup key = some hits := by
  rw [makeRoom] at found
  split at found
  · exact lookup_of_evictStalest found
  · exact found

theorem makeRoom_of_lt (below : buckets.map.size < maxTrackedIps) :
    buckets.makeRoom key = buckets := by
  rw [makeRoom, if_neg]
  rintro ⟨full, -⟩
  exact absurd below (not_lt.mpr full)

theorem lookup_of_prepare {config : RateLimitConfig}
    (found : (buckets.prepare config other now).map.lookup key = some hits) :
    buckets.map.lookup key = some hits :=
  lookup_of_sweepIfDue (lookup_of_makeRoom found)

/-! ## What a call does to the map -/

section Call

variable {config : RateLimitConfig} {ip : IpAddr}

theorem bucket_checkAt_self :
    (buckets.checkAt config ip now).2.bucket (limiterKey ip) =
      (attempt config.maxAttempts (config.cutoff now) now
        ((buckets.prepare config (limiterKey ip) now).bucket (limiterKey ip))).2 :=
  bucket_of_lookup (AList.lookup_insert _)

theorem bucket_checkAt_other (different : key ≠ limiterKey ip) :
    (buckets.checkAt config ip now).2.bucket key =
      (buckets.prepare config (limiterKey ip) now).bucket key := by
  rw [bucket, bucket]
  exact congrArg (Option.getD · []) (AList.lookup_insert_ne different)

/-- After a call a bucket is that of the call's key, or as it was. -/
theorem lookup_of_checkAt
    (found : (buckets.checkAt config ip now).2.map.lookup key = some hits) :
    (key = limiterKey ip ∧
      hits = (attempt config.maxAttempts (config.cutoff now) now
        ((buckets.prepare config (limiterKey ip) now).bucket (limiterKey ip))).2) ∨
    (key ≠ limiterKey ip ∧
      (buckets.prepare config (limiterKey ip) now).map.lookup key = some hits) := by
  by_cases same : key = limiterKey ip
  · subst same
    exact .inl ⟨rfl, (bucket_of_lookup found).symm.trans bucket_checkAt_self⟩
  · exact .inr ⟨same, (AList.lookup_insert_ne same).symm.trans found⟩

theorem mem_of_checkAt (member : key ∈ (buckets.checkAt config ip now).2.map) :
    key = limiterKey ip ∨ key ∈ buckets.map := by
  rcases Keyed.lookup_of_mem member with ⟨hits, found⟩
  rcases lookup_of_checkAt found with ⟨same, -⟩ | ⟨-, before⟩
  · exact .inl same
  · exact .inr (Keyed.mem_of_lookup (lookup_of_prepare before))

end Call

def Tidy (buckets : Buckets) (clock : Nat) : Prop :=
  ∀ key hits, buckets.map.lookup key = some hits → Sliding.Tidy clock hits

namespace Tidy

variable {clock : Nat} {config : RateLimitConfig}

theorem default : Buckets.default.Tidy clock := by
  intro key hits found
  cases found

theorem later (tidy : buckets.Tidy clock) (passed : clock ≤ now) : buckets.Tidy now :=
  fun key hits found => (tidy key hits found).later passed

theorem prepare (tidy : buckets.Tidy clock) :
    (buckets.prepare config other now).Tidy clock :=
  fun key hits found => tidy key hits (lookup_of_prepare found)

theorem bucket (tidy : buckets.Tidy clock) (key : IpAddr) :
    Sliding.Tidy clock (buckets.bucket key) := by
  cases found : buckets.map.lookup key with
  | none =>
      rw [Buckets.bucket, found]
      exact .nil clock
  | some hits =>
      rw [bucket_of_lookup found]
      exact tidy key hits found

theorem checkAt (tidy : buckets.Tidy clock) (passed : clock ≤ now) (ip : IpAddr) :
    (buckets.checkAt config ip now).2.Tidy now := by
  intro key hits found
  have ready : (buckets.prepare config (limiterKey ip) now).Tidy now :=
    (tidy.later passed).prepare
  rcases lookup_of_checkAt found with ⟨-, rfl⟩ | ⟨-, before⟩
  · exact (ready.bucket (limiterKey ip)).attempt _ _
  · exact ready key hits before

end Tidy

end Buckets

theorem mem_of_run {config : RateLimitConfig} {calls : List Attempt} {key : IpAddr}
    (member : key ∈ (Run.of config calls).buckets.map) : key ∈ keysOf calls := by
  rw [mem_keysOf]
  induction calls using List.reverseRecOn with
  | nil => cases member
  | append_singleton calls call induction =>
      rw [Run.of_append] at member
      rcases Buckets.mem_of_checkAt member with rfl | before
      · exact ⟨call, by simp, rfl⟩
      · rcases induction before with ⟨earlier, among, same⟩
        exact ⟨earlier, List.mem_append_left _ among, same⟩

theorem size_of_run (config : RateLimitConfig) (calls : List Attempt) :
    (Run.of config calls).buckets.map.size ≤ (keysOf calls).length :=
  Keyed.size_le fun _ => mem_of_run

theorem tidy_of_run {config : RateLimitConfig} {calls : List Attempt} {clock : Nat}
    (ordered : Ordered calls) (past : ∀ call ∈ calls, call.now ≤ clock) :
    (Run.of config calls).buckets.Tidy clock := by
  induction calls using List.reverseRecOn generalizing clock with
  | nil => exact .default
  | append_singleton calls call induction =>
      rw [Run.of_append]
      rcases ordered_append.mp ordered with ⟨earlier, before⟩
      have reached : call.now ≤ clock := past call (by simp)
      exact ((induction earlier before).checkAt le_rfl call.ip).later reached

end Loontail.Server
