import Mathlib.Data.List.Basic

/-!
# Soft notifications

`sendSoftNotification` publishes a message to an SNS topic, and keeps the package-level map
`softNotifCache` "to avoid sending the same notifications over and over": a call for an ID
that was published less than 24 hours before is silenced. Outside Lambda, or when no topic
is configured, the message is only logged; a failed `Publish` returns its error. Only a
successful publication writes the cache, with the clock as read after publishing.

The cache lives as long as the process, so a run is the sequence of calls one process
makes (`runNotifications`), and the ghost field `NotifState.sent` records the calls that
published. Go's `time.Now()` carries a monotonic reading and every comparison here is
between two such readings, so along a run the clock never goes back (`Clocked`).

**Results.** The cache holds, for each ID, the time of its last publication
(`cache_eq_lastSent`). A call is silenced exactly when its ID was published less than
24 hours before the call read the clock (`call_silenced_iff`), and two publications of one
ID are always at least 24 hours apart (`sent_apart`).
-/

namespace Autograph.Monitor

/-- `24 * time.Hour`, in nanoseconds. -/
def silencePeriod : Int := 24 * 3600 * 1000000000

/-- The environment variables `sendSoftNotification` reads. -/
structure NotifEnv where
  lambdaTaskRoot : String
  softNotificationSns : String
  deriving DecidableEq, Repr

/-- One call: its ID, its message (`fmt.Sprintf(format, a...)`), the clock as the call
first reads it and as it reads it after publishing, and the error of `svc.Publish`, if any. -/
structure NotifCall where
  id : String
  message : String
  now : Int
  sentAt : Int
  publishErr : Option String
  deriving DecidableEq, Repr

/-- What a call did. -/
inductive NotifOutcome where
  /-- Returned nil at once: the ID was published less than 24 hours before. -/
  | silenced
  /-- Returned nil after only logging the message. -/
  | logged
  /-- Published the message to the topic, and returned nil. -/
  | published (topic message : String)
  /-- `Publish` failed, and its error is returned. -/
  | failed (err : String)
  deriving DecidableEq, Repr

/-- The error `sendSoftNotification` returns. -/
def NotifOutcome.err : NotifOutcome → Option String
  | .failed e => some e
  | _ => none

/-- The call published its message. -/
def NotifOutcome.isPublished : NotifOutcome → Bool
  | .published _ _ => true
  | _ => false

/-- `ts.Add(24 * time.Hour).After(now)` for the cache entry `ts` of `id`, if there is one. -/
def isSilenced (cache : String → Option Int) (id : String) (now : Int) : Bool :=
  match cache id with
  | some ts => now < ts + silencePeriod
  | none => false

/-- `sendSoftNotification`, on the cache: the cache after the call, and what the call did. -/
def sendSoftNotification (env : NotifEnv) (cache : String → Option Int) (c : NotifCall) :
    (String → Option Int) × NotifOutcome :=
  if isSilenced cache c.id c.now then (cache, .silenced)
  else if env.lambdaTaskRoot = "" ∨ env.softNotificationSns = "" then (cache, .logged)
  else
    match c.publishErr with
    | some e => (cache, .failed e)
    | none =>
      (Function.update cache c.id (some c.sentAt), .published env.softNotificationSns c.message)

/-! ## Runs of one process -/

/-- The process's state: `softNotifCache`, and (ghost) the calls that published, in order. -/
structure NotifState where
  cache : String → Option Int
  sent : List NotifCall

/-- The empty cache `init` makes. -/
def NotifState.init : NotifState := ⟨fun _ => none, []⟩

/-- One call on the process's state. -/
def NotifState.call (env : NotifEnv) (st : NotifState) (c : NotifCall) :
    NotifState × NotifOutcome :=
  let r := sendSoftNotification env st.cache c
  (⟨r.1, if r.2.isPublished then st.sent ++ [c] else st.sent⟩, r.2)

/-- The state after a process's calls, in order. -/
def runNotifications (env : NotifEnv) (calls : List NotifCall) : NotifState :=
  calls.foldl (fun st c => (st.call env c).1) NotifState.init

/-- The clock readings of a run never go back. -/
def Clocked (calls : List NotifCall) : Prop :=
  (∀ c ∈ calls, c.now ≤ c.sentAt) ∧ calls.Pairwise fun a b => a.sentAt ≤ b.now

instance : DecidablePred Clocked := fun l =>
  inferInstanceAs (Decidable ((∀ c ∈ l, c.now ≤ c.sentAt) ∧
    List.Pairwise (fun a b : NotifCall => a.sentAt ≤ b.now) l))

/-- The time of the last publication of `id`. -/
def lastSent (sent : List NotifCall) (id : String) : Option Int :=
  ((sent.filter (·.id == id)).getLast?).map (·.sentAt)

/-! ## One call -/

section
variable {env : NotifEnv} {cache : String → Option Int} {c : NotifCall}

theorem sendSoftNotification_silenced_iff :
    (sendSoftNotification env cache c).2 = .silenced ↔ isSilenced cache c.id c.now = true := by
  unfold sendSoftNotification
  split_ifs with h
  · simp [h]
  · simp [h]
  · split <;> simp [h]

/-- Only a publication writes the cache, and it records the second clock reading. -/
theorem sendSoftNotification_cache :
    (sendSoftNotification env cache c).1 = if (sendSoftNotification env cache c).2.isPublished
      then Function.update cache c.id (some c.sentAt) else cache := by
  unfold sendSoftNotification
  cases c.publishErr <;> split_ifs <;> simp_all [NotifOutcome.isPublished]

end

/-! ## Runs -/

section
variable {env : NotifEnv}

theorem runNotifications_snoc (calls : List NotifCall) (c : NotifCall) :
    runNotifications env (calls ++ [c]) = ((runNotifications env calls).call env c).1 := by
  simp [runNotifications, List.foldl_append]

/-- The cache holds the time of each ID's last publication. -/
theorem cache_eq_lastSent (calls : List NotifCall) (id : String) :
    (runNotifications env calls).cache id = lastSent (runNotifications env calls).sent id := by
  induction calls using List.reverseRecOn with
  | nil => rfl
  | append_singleton calls c ih =>
    rw [runNotifications_snoc]
    simp only [NotifState.call]
    rw [sendSoftNotification_cache]
    split_ifs
    · by_cases hid : c.id = id
      · subst hid
        simp only [lastSent, List.filter_append, List.filter_singleton, beq_self_eq_true,
          cond_true, List.getLast?_append, List.getLast?_singleton, Option.or_some,
          Function.update_same, Option.map_some']
      · simp only [lastSent, List.filter_append, List.filter_singleton, beq_false_of_ne hid,
          cond_false, List.append_nil, Function.update_noteq (Ne.symm hid), ih]
    · exact ih

/-- The calls that published are among the run's calls, in order. -/
theorem sent_sublist (calls : List NotifCall) :
    List.Sublist (runNotifications env calls).sent calls := by
  induction calls using List.reverseRecOn with
  | nil => exact .slnil
  | append_singleton calls c ih =>
    rw [runNotifications_snoc]
    simp only [NotifState.call]
    split_ifs
    · exact ih.append (.refl _)
    · exact ih.trans (List.sublist_append_left _ _)

end

theorem Clocked.sublist {l l' : List NotifCall} (h : Clocked l) (hs : List.Sublist l' l) :
    Clocked l' :=
  ⟨fun c hc => h.1 c (hs.subset hc), h.2.sublist hs⟩

/-- Along a clocked sequence, the last call has the latest second reading. -/
theorem Clocked.le_getLast? {l : List NotifCall} {q : NotifCall} (h : Clocked l)
    (hq : l.getLast? = some q) : ∀ p ∈ l, p.sentAt ≤ q.sentAt := by
  obtain ⟨l', rfl⟩ := List.getLast?_eq_some_iff.mp hq
  intro p hp
  rcases List.mem_append.mp hp with hp | hp
  · have hpq := (List.pairwise_append.mp h.2).2.2 p hp q (List.mem_singleton_self q)
    have hq' := h.1 q (by simp)
    omega
  · obtain rfl := List.mem_singleton.mp hp; exact Int.le_refl _

/-- After a clocked run, an ID is silenced at `now` exactly when one of its publications is
less than 24 hours older than `now`. -/
theorem isSilenced_run_iff {env : NotifEnv} {calls : List NotifCall} (hclock : Clocked calls)
    (id : String) (now : Int) :
    isSilenced (runNotifications env calls).cache id now = true ↔
      ∃ p ∈ (runNotifications env calls).sent, p.id = id ∧ now < p.sentAt + silencePeriod := by
  have hsent : Clocked (((runNotifications env calls).sent).filter (·.id == id)) :=
    hclock.sublist ((List.filter_sublist _).trans (sent_sublist calls))
  simp only [isSilenced, cache_eq_lastSent, lastSent]
  cases hq : (((runNotifications env calls).sent).filter (·.id == id)).getLast? with
  | none =>
    simp only [List.getLast?_eq_none_iff, List.filter_eq_nil_iff, beq_iff_eq] at hq
    simpa using fun p hp hid => absurd hid (hq p hp)
  | some q =>
    have hqmem : q ∈ ((runNotifications env calls).sent).filter (·.id == id) := by
      obtain ⟨l', hl'⟩ := List.getLast?_eq_some_iff.mp hq
      simp [hl']
    simp only [Option.map_some', decide_eq_true_eq]
    constructor
    · intro hlt
      obtain ⟨hq, hid⟩ := List.mem_filter.mp hqmem
      exact ⟨q, hq, by simpa using hid, hlt⟩
    · rintro ⟨p, hp, hid, hlt⟩
      have := hsent.le_getLast? hq p (List.mem_filter.mpr ⟨hp, by simpa using hid⟩)
      omega

/--
**A call is silenced exactly when it should be.** After any run whose clock never goes
back, a call is silenced exactly when its ID was published less than 24 hours before the
call first reads the clock.
-/
theorem call_silenced_iff {env : NotifEnv} {calls : List NotifCall} {c : NotifCall}
    (hclock : Clocked calls) :
    ((runNotifications env calls).call env c).2 = .silenced ↔
      ∃ p ∈ (runNotifications env calls).sent, p.id = c.id ∧ c.now < p.sentAt + silencePeriod :=
  sendSoftNotification_silenced_iff.trans (isSilenced_run_iff hclock c.id c.now)

/-- A Lambda environment with a topic. -/
def lambdaEnv : NotifEnv := ⟨"/var/task", "topic"⟩

/-- Three calls for one ID, an hour apart and then a day apart, every `Publish` succeeding. -/
def hourlyCalls : List NotifCall :=
  [⟨"x", "first", 0, 1, none⟩, ⟨"x", "again", 3600000000000, 3600000000001, none⟩,
   ⟨"x", "next day", 90000000000000, 90000000000001, none⟩]

/-- An hour after the first publication, a call for the same ID is silenced. -/
theorem call_silenced_after_an_hour :
    Clocked (hourlyCalls.take 1) ∧
      ((runNotifications lambdaEnv (hourlyCalls.take 1)).call lambdaEnv hourlyCalls[1]).2 =
        .silenced ∧
      (((runNotifications lambdaEnv (hourlyCalls.take 1)).call lambdaEnv hourlyCalls[1]).2 =
          .silenced ↔
        ∃ p ∈ (runNotifications lambdaEnv (hourlyCalls.take 1)).sent,
          p.id = hourlyCalls[1].id ∧ hourlyCalls[1].now < p.sentAt + silencePeriod) :=
  ⟨by decide, by decide, call_silenced_iff (by decide)⟩

/--
**Two publications of one ID are at least 24 hours apart.** Along any run whose clock never
goes back, a publication first reads the clock at least 24 hours after the time recorded for
every earlier publication of the same ID.
-/
theorem sent_apart {env : NotifEnv} {calls : List NotifCall} (hclock : Clocked calls) :
    (runNotifications env calls).sent.Pairwise
      fun p q => p.id = q.id → p.sentAt + silencePeriod ≤ q.now := by
  induction calls using List.reverseRecOn with
  | nil => exact .nil
  | append_singleton calls c ih =>
    have hpre : Clocked calls := hclock.sublist (List.sublist_append_left _ _)
    rw [runNotifications_snoc]
    simp only [NotifState.call]
    split_ifs with hp
    · refine List.pairwise_append.mpr ⟨ih hpre, List.pairwise_singleton _ _, fun p hps q hq hid => ?_⟩
      rw [List.mem_singleton.mp hq] at hid ⊢
      -- a call that published was not silenced
      refine Int.not_lt.mp fun hlt => ?_
      have hs := (@sendSoftNotification_silenced_iff env _ c).mpr
        ((isSilenced_run_iff hpre c.id c.now).mpr ⟨p, hps, hid, hlt⟩)
      simp [hs, NotifOutcome.isPublished] at hp
    · exact ih hpre

/-- The first call, an hour later a second, and a day later a third, all for one ID; the
second is silenced. -/
theorem sent_apart_hourly :
    Clocked hourlyCalls ∧ (runNotifications lambdaEnv hourlyCalls).sent.map (·.message) =
      ["first", "next day"] ∧ (runNotifications lambdaEnv hourlyCalls).sent.Pairwise
        fun p q => p.id = q.id → p.sentAt + silencePeriod ≤ q.now :=
  ⟨by decide, by decide, sent_apart (by decide)⟩

end Autograph.Monitor
