import Loontail.Guarantees.SlidingLog
import Loontail.Server.Limiter

/-! # When the limiter fails open

Before a window has passed since the clock's origin there is no cutoff, and the current
time stands in for it: whatever is in the bucket is dropped, as if it were stale. -/

namespace Loontail.Server

open Sliding

/-- How many of the times are less than a window before `now`. -/
def fresh (window now : Nat) (times : List Nat) : Nat := times.countP (now < · + window)

theorem fresh_eq_live {window now : Nat} (representable : window ≤ now) (times : List Nat) :
    fresh window now times = Sliding.live (now - window) times := by
  unfold fresh Sliding.live
  refine List.countP_congr fun time _ => ?_
  simp only [decide_eq_true_eq]
  omega

@[simp] theorem fresh_nil (window now : Nat) : fresh window now [] = 0 := rfl

@[simp] theorem fresh_append (window now : Nat) (left right : List Nat) :
    fresh window now (left ++ right) = fresh window now left + fresh window now right :=
  List.countP_append

theorem fresh_singleton (window now time : Nat) :
    fresh window now [time] = if now < time + window then 1 else 0 := by
  simp [fresh, List.countP_cons]

theorem fresh_later {window now later : Nat} (passed : now ≤ later) (times : List Nat) :
    fresh window later times ≤ fresh window now times := by
  unfold fresh
  refine List.countP_mono_left fun time _ reaches => ?_
  simp only [decide_eq_true_eq] at reaches ⊢
  omega

/-- The visit finds a cutoff, or nothing that the lack of one could drop. -/
def Timely (config : RateLimitConfig) (limiter : Limiter) (visit : Visit) : Prop :=
  config.window ≤ visit.now ∨ limiter.bucket visit.drawer = []

instance (config : RateLimitConfig) (limiter : Limiter) (visit : Visit) :
    Decidable (Timely config limiter visit) := inferInstanceAs (Decidable (_ ∨ _))

theorem not_evicts_of_lt {config : RateLimitConfig} {limiter : Limiter} {visit : Visit}
    {drawer : Option IpAddr} (below : limiter.hits.map.size < maxTrackedIps) :
    ¬limiter.Evicts config visit drawer := by
  rintro ⟨own, key, -, -, tracked, gone⟩
  rw [Buckets.prepare, Buckets.makeRoom_of_lt (lt_of_le_of_lt Buckets.size_sweepIfDue below)] at gone
  exact gone tracked

/-! ## One attempt -/

section Attempt

variable {config : RateLimitConfig} {now later : Nat} {hits : List Nat}

/-- An attempt that is timely forgets nothing that is fresh. -/
theorem fresh_attempt (timely : config.window ≤ now ∨ hits = []) (passed : now ≤ later) :
    fresh config.window later (attempt config.maxAttempts (config.cutoff now) now hits).2 =
      fresh config.window later hits +
        if (attempt config.maxAttempts (config.cutoff now) now hits).1 && later < now + config.window
        then 1 else 0 := by
  rcases timely with representable | rfl
  · have cut := cutoff_of_representable representable
    rw [fresh_eq_live (representable.trans passed), fresh_eq_live (representable.trans passed),
      live_attempt (by rw [cut]; omega)]
    congr 2
    simp only [Bool.and_eq_true, decide_eq_true_eq, eq_iff_iff]
    refine and_congr_right fun _ => ?_
    omega
  · by_cases closed : config.maxAttempts = 0
    · simp [attempt, prune, closed]
    · simp [attempt, prune, closed, fresh_singleton]

theorem fresh_lt_of_admitted (ordered : hits.Pairwise (· ≤ ·))
    (timely : config.window ≤ now ∨ hits = [])
    (admitted : (attempt config.maxAttempts (config.cutoff now) now hits).1 = true) :
    fresh config.window now hits < config.maxAttempts := by
  rw [attempt_admits ordered, decide_eq_true_eq] at admitted
  rcases timely with representable | rfl
  · rw [fresh_eq_live representable, ← cutoff_of_representable representable]
    exact admitted
  · exact admitted

end Attempt

/-! ## Runs -/

/-- What the limiter remembers of a bucket covers every window that can still come. -/
structure Covers (config : RateLimitConfig) (clock : Nat) (drawer : Option IpAddr)
    (season : Season) : Prop where
  tidy : season.limiter.hits.Tidy clock
  shared : Sliding.Tidy clock season.limiter.unresolved
  unswept : season.limiter.hits.lastSweep = none → ∀ key, season.limiter.hits.bucket key = []
  past : ∀ time ∈ season.admissions drawer, time ≤ clock
  counts : ∀ later, clock ≤ later →
    fresh config.window later (season.limiter.bucket drawer) =
      fresh config.window later (season.admissions drawer)
  within : ∀ time, season.recent drawer config.window time ≤ config.maxAttempts

namespace Covers

variable {config : RateLimitConfig} {clock : Nat} {drawer : Option IpAddr} {season : Season}
  {visit : Visit}

theorem start (config : RateLimitConfig) (clock : Nat) (drawer : Option IpAddr) :
    Covers config clock drawer .start where
  tidy := .default
  shared := .nil clock
  unswept := fun _ _ => rfl
  past := by simp [Season.admissions, Season.start]
  counts := fun later _ => by cases drawer <;> rfl
  within := fun _ => Nat.zero_le _

theorem later {now : Nat} (covers : Covers config clock drawer season) (passed : clock ≤ now) :
    Covers config now drawer season where
  tidy := covers.tidy.later passed
  shared := covers.shared.later passed
  unswept := covers.unswept
  past := fun time member => (covers.past time member).trans passed
  counts := fun later reached => covers.counts later (passed.trans reached)
  within := covers.within

/-- A sweep drops nothing that is fresh: one that is due before there is a cutoff finds no
bucket at all. -/
theorem fresh_sweep (covers : Covers config clock drawer season) {now later : Nat}
    (reached : clock ≤ now) (passed : now ≤ later) (key : IpAddr) :
    fresh config.window later ((season.limiter.hits.sweepIfDue now (config.cutoff now)
        config.window).bucket key) =
      fresh config.window later (season.limiter.hits.bucket key) := by
  by_cases representable : config.window ≤ now
  · rw [fresh_eq_live (representable.trans passed), fresh_eq_live (representable.trans passed)]
    refine Buckets.live_sweepIfDue (covers.tidy.later reached) ?_ key
    rw [cutoff_of_representable representable]
    omega
  · cases swept : season.limiter.hits.lastSweep with
    | none =>
        have empty := covers.unswept swept key
        rw [empty]
        by_cases kept : key ∈ (season.limiter.hits.sweepIfDue now (config.cutoff now)
            config.window).map
        · obtain ⟨hits, found⟩ := Keyed.lookup_of_mem kept
          rw [Buckets.bucket_of_lookup found,
            ← Buckets.bucket_of_lookup (Buckets.lookup_of_sweepIfDue found), empty]
        · rw [Buckets.bucket_of_not_mem kept]
    | some previous =>
        have rests : season.limiter.hits.sweepDue now config.window = false := by
          simp only [Buckets.sweepDue, swept, decide_eq_false_iff_not]
          omega
        rw [Buckets.sweepIfDue, if_neg (by rw [rests]; exact Bool.false_ne_true)]

theorem fresh_prepare (covers : Covers config clock drawer season)
    (stays : ¬season.limiter.Evicts config visit drawer) {later : Nat}
    (reached : clock ≤ visit.now) (passed : visit.now ≤ later) :
    fresh config.window later ((season.limiter.prepare config visit).bucket drawer) =
      fresh config.window later (season.limiter.bucket drawer) := by
  unfold Limiter.prepare
  cases filed : visit.drawer with
  | none => rfl
  | some own =>
      cases drawer with
      | none => rfl
      | some key =>
          rw [Limiter.bucket, Limiter.bucket, ← covers.fresh_sweep reached passed key]
          by_cases kept : key ∈ (season.limiter.hits.prepare config own visit.now).map
          · obtain ⟨hits, found⟩ := Keyed.lookup_of_mem kept
            rw [Buckets.bucket_of_lookup found,
              Buckets.bucket_of_lookup (Buckets.lookup_of_makeRoom found)]
          · have unswept : key ∉ (season.limiter.hits.sweepIfDue visit.now
                (config.cutoff visit.now) config.window).map := fun tracked =>
              stays ⟨own, key, filed, rfl, tracked, kept⟩
            rw [Buckets.bucket_of_not_mem kept, Buckets.bucket_of_not_mem unswept]

theorem prepare_empty (empty : season.limiter.bucket drawer = []) :
    (season.limiter.prepare config visit).bucket drawer = [] := by
  unfold Limiter.prepare
  cases visit.drawer with
  | none => exact empty
  | some own =>
      cases drawer with
      | none => exact empty
      | some key =>
          by_cases kept : key ∈ (season.limiter.hits.prepare config own visit.now).map
          · obtain ⟨hits, found⟩ := Keyed.lookup_of_mem kept
            have before := Buckets.bucket_of_lookup (Buckets.lookup_of_prepare found)
            exact (Buckets.bucket_of_lookup found).trans (before.symm.trans empty)
          · exact Buckets.bucket_of_not_mem kept

theorem prepare_timely (timely : Timely config season.limiter visit) :
    config.window ≤ visit.now ∨ (season.limiter.prepare config visit).bucket visit.drawer = [] :=
  timely.imp_right prepare_empty

theorem ordered (covers : Covers config clock drawer season) (other : Option IpAddr) :
    ((season.limiter.prepare config visit).bucket other).Pairwise (· ≤ ·) := by
  unfold Limiter.prepare
  cases visit.drawer with
  | none =>
      cases other with
      | none => exact covers.shared.ordered
      | some key => exact (covers.tidy.bucket key).ordered
  | some own =>
      cases other with
      | none => exact covers.shared.ordered
      | some key => exact (covers.tidy.prepare.bucket key).ordered

/-- After a visit the map has been swept, or nothing has ever been filed in it. -/
theorem unswept_step (covers : Covers config clock drawer season)
    (never : (season.step config visit).limiter.hits.lastSweep = none) (key : IpAddr) :
    (season.step config visit).limiter.hits.bucket key = [] := by
  change (season.limiter.check config visit).2.hits.lastSweep = none at never
  change (season.limiter.check config visit).2.hits.bucket key = []
  obtain ⟨client, now⟩ := visit
  cases client with
  | none => exact covers.unswept never key
  | some ip =>
      rw [Limiter.lastSweep_check] at never
      change ((season.limiter.hits.sweepIfDue now (config.cutoff now) config.window).makeRoom
        (limiterKey ip)).lastSweep = none at never
      have swept : (season.limiter.hits.sweepIfDue now (config.cutoff now)
          config.window).lastSweep = none := by
        rw [Buckets.makeRoom] at never
        split at never <;> exact never
      unfold Buckets.sweepIfDue at swept
      split at swept
      · cases swept
      · rename_i rests
        rw [Buckets.sweepDue, swept] at rests
        exact (rests rfl).elim

theorem counts_step (covers : Covers config clock drawer season)
    (stays : ¬season.limiter.Evicts config visit drawer)
    (timely : visit.drawer = drawer → Timely config season.limiter visit)
    (reached : clock ≤ visit.now) {later : Nat} (passed : visit.now ≤ later) :
    fresh config.window later ((season.step config visit).limiter.bucket drawer) =
      fresh config.window later ((season.step config visit).admissions drawer) := by
  have before := (covers.fresh_prepare stays reached passed).trans
    (covers.counts later (reached.trans passed))
  rw [Season.admissions_step, fresh_append]
  change fresh config.window later ((season.limiter.check config visit).2.bucket drawer) = _
  by_cases same : visit.drawer = drawer
  · subst same
    obtain ⟨decision, left⟩ := @Limiter.check_attempt season.limiter config visit
    rw [left, decision, fresh_attempt (prepare_timely (timely rfl)) passed, before]
    congr 1
    cases (attempt config.maxAttempts (config.cutoff visit.now) visit.now
        ((season.limiter.prepare config visit).bucket visit.drawer)).1 with
    | false => simp
    | true => simp [fresh_singleton]
  · rw [Limiter.bucket_check_other (Ne.symm same), before, if_neg fun both => same both.2,
      fresh_nil, Nat.add_zero]

theorem within_step (covers : Covers config clock drawer season)
    (stays : ¬season.limiter.Evicts config visit drawer)
    (timely : visit.drawer = drawer → Timely config season.limiter visit)
    (reached : clock ≤ visit.now) (time : Nat) :
    (season.step config visit).recent drawer config.window time ≤ config.maxAttempts := by
  have before := covers.within time
  unfold Season.recent at before ⊢
  rw [Season.admissions_step, List.countP_append]
  split
  · rename_i admitted
    obtain ⟨admits, rfl⟩ := admitted
    by_cases counted : time < visit.now + config.window ∧ visit.now ≤ time
    · rw [(@Limiter.check_attempt season.limiter config visit).1] at admits
      have room := fresh_lt_of_admitted (covers.ordered visit.drawer)
        (prepare_timely (timely rfl)) admits
      rw [covers.fresh_prepare stays reached (le_refl _), covers.counts _ reached] at room
      have fewer : (season.admissions visit.drawer).countP
          (fun admitted => time < admitted + config.window ∧ admitted ≤ time) ≤
            fresh config.window visit.now (season.admissions visit.drawer) := by
        refine le_trans ?_ (fresh_later counted.2 _)
        unfold fresh
        refine List.countP_mono_left fun admitted _ recent => ?_
        simp only [decide_eq_true_eq] at recent ⊢
        exact recent.1
      have single : [visit.now].countP
          (fun admitted => time < admitted + config.window ∧ admitted ≤ time) ≤ 1 :=
        List.countP_le_length
      omega
    · have none : [visit.now].countP
          (fun admitted => time < admitted + config.window ∧ admitted ≤ time) = 0 := by
        simp [counted]
      omega
  · simpa using before

theorem step (covers : Covers config clock drawer season)
    (stays : ¬season.limiter.Evicts config visit drawer)
    (timely : visit.drawer = drawer → Timely config season.limiter visit)
    (reached : clock ≤ visit.now) : Covers config visit.now drawer (season.step config visit) where
  tidy := by
    change (season.limiter.check config visit).2.hits.Tidy visit.now
    obtain ⟨client, now⟩ := visit
    cases client with
    | none => exact covers.tidy.later reached
    | some ip => exact covers.tidy.checkAt reached ip
  shared := by
    change Sliding.Tidy visit.now (season.limiter.check config visit).2.unresolved
    obtain ⟨client, now⟩ := visit
    cases client with
    | none => exact (covers.shared.later reached).attempt _ _
    | some ip => exact covers.shared.later reached
  unswept := covers.unswept_step
  past := by
    intro time member
    rw [Season.admissions_step] at member
    rcases List.mem_append.mp member with earlier | new
    · exact (covers.past time earlier).trans reached
    · split at new
      · rw [List.mem_singleton.mp new]
      · cases new
  counts := fun later passed => covers.counts_step stays timely reached passed
  within := covers.within_step stays timely reached

end Covers

theorem exists_closing (visits : List Visit) : ∃ clock, ∀ visit ∈ visits, visit.now ≤ clock := by
  induction visits with
  | nil => exact ⟨0, by simp⟩
  | cons visit rest induction =>
      obtain ⟨clock, past⟩ := induction
      refine ⟨max visit.now clock, fun one member => ?_⟩
      rcases List.mem_cons.mp member with rfl | later
      · exact le_max_left _ _
      · exact (past one later).trans (le_max_right _ _)

/-- In every run whose visits to a bucket are timely, and that never evicts it, no window
holds more of its admissions than the budget. -/
theorem limiter_fails_closed {config : RateLimitConfig} {visits : List Visit}
    {drawer : Option IpAddr}
    (ordered : visits.Pairwise fun earlier later => earlier.now ≤ later.now)
    (stays : ∀ earlier visit, earlier ++ [visit] <+: visits →
      ¬(Season.of config earlier).limiter.Evicts config visit drawer)
    (timely : ∀ earlier visit, earlier ++ [visit] <+: visits → visit.drawer = drawer →
      Timely config (Season.of config earlier).limiter visit) (time : Nat) :
    (Season.of config visits).recent drawer config.window time ≤ config.maxAttempts := by
  suffices covers : ∀ clock, (∀ visit ∈ visits, visit.now ≤ clock) →
      Covers config clock drawer (Season.of config visits) by
    obtain ⟨clock, past⟩ := exists_closing visits
    exact (covers clock past).within time
  induction visits using List.reverseRecOn with
  | nil => exact fun clock _ => .start config clock drawer
  | append_singleton visits visit induction =>
      intro clock past
      obtain ⟨before, -, later⟩ := List.pairwise_append.mp ordered
      have covers := induction before
        (fun earlier one within => stays earlier one (within.trans (List.prefix_append _ _)))
        (fun earlier one within => timely earlier one (within.trans (List.prefix_append _ _)))
        visit.now fun one member => later one member visit (by simp)
      rw [Season.of_append]
      exact (covers.step (stays visits visit (List.prefix_refl _))
        (timely visits visit (List.prefix_refl _)) (le_refl _)).later (past visit (by simp))

def evening : List Visit :=
  [⟨some (.v4 1), 5⟩, ⟨none, 30⟩, ⟨some (.v4 1), 70⟩, ⟨some (.v4 1), 75⟩, ⟨none, 80⟩]

theorem forall_visit {visits : List Visit} {holds : List Visit → Visit → Prop}
    (each : ∀ index, ∀ bound : index < visits.length, holds (visits.take index) visits[index])
    (earlier : List Visit) (visit : Visit) (within : earlier ++ [visit] <+: visits) :
    holds earlier visit := by
  obtain ⟨later, rfl⟩ := within
  have here := each earlier.length (by simp)
  simpa using here

theorem limiter_fails_closed_evening :
    (Season.of ⟨2, 60⟩ evening).recent (some (.v4 1)) 60 75 ≤ 2 := by
  refine @limiter_fails_closed ⟨2, 60⟩ evening (some (.v4 1)) (by decide) ?_ ?_ 75
  · refine forall_visit fun index bound => not_evicts_of_lt ?_
    revert index
    decide +kernel
  · refine forall_visit ?_
    decide +kernel

/-- Where the clock is less than a window old, an address is admitted at will. -/
theorem limiter_fails_open :
    ¬∀ (config : RateLimitConfig) (visits : List Visit) (drawer : Option IpAddr) (time : Nat),
      visits.Pairwise (fun earlier later => earlier.now ≤ later.now) →
      (∀ earlier visit, earlier ++ [visit] <+: visits →
        ¬(Season.of config earlier).limiter.Evicts config visit drawer) →
      (Season.of config visits).recent drawer config.window time ≤ config.maxAttempts := by
  intro always
  have bounded := always ⟨1, 60⟩ [⟨none, 5⟩, ⟨none, 6⟩] none 6 (by decide) ?_
  · exact absurd bounded (by decide)
  · rintro earlier visit - ⟨own, key, filed, nothing, -⟩
    cases nothing

end Loontail.Server
