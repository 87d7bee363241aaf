import Autograph.Proof.Exec

/-!
# The store invariant

Three facts hold in every reachable world, and everything about the store follows
from them.

**The lock log is a sequence of intervals.** The ghost log reads
`acquire h₁, release h₁, acquire h₂, release h₂, …`, possibly ending in the current
holder's `acquire`, and the committed tables are exactly the commits of those intervals
replayed in order (`LockLog`).

**Committed lock rows are released.** Every committed `endentities_lock` row is below the
sequence and has `is_locked = false`.

**Each client is where its code says.** `ClientInv` pins down, for each program point,
which states the client's transaction can be in and whether it holds the lock. A client
with a handle holds the lock exactly while its transaction is open, and then its writes
are its lock row, one `block` per completed `InsertEE`, and what the current call has
added so far (`Shape`).
-/

namespace Autograph.Database

/-! ## The writes of a transaction -/

/-- The writes of one successful `InsertEE`: its row, then the demotion of the others. -/
def block (r : EERow) : List Write := [.insertEE r, .demote r.signerId r.label]

/-- The writes of a sequence of successful `InsertEE` calls. -/
def blocks (rs : List EERow) : List Write := rs.flatMap block

@[simp] theorem blocks_nil : blocks [] = [] := rfl

theorem blocks_append (rs rs' : List EERow) : blocks (rs ++ rs') = blocks rs ++ blocks rs' :=
  List.flatMap_append _ _ _

/-- The lock row `BeginEndEntityOperations` inserts. -/
def lockRow (n : Nat) : LockRow := ⟨n, true, none⟩

/-- The writes of a transaction that `End` committed. -/
def CommittedShape (ws : List Write) : Prop :=
  ∃ n rs t, (∀ r ∈ rs, r.isCurrent = true) ∧
    ws = .insertLock (lockRow n) :: blocks rs ++ [.freeLock n t]

/-- What the call in progress at `pc` has written past the completed `InsertEE` calls. -/
def TailOK (n : Nat) : Pc → List Write → Prop
  | .idle, tl => tl = []
  | .lookup _ _, tl => tl = []
  | .insert (.insert _ _ _ _), tl => tl = []
  | .insert (.demote s l), tl =>
    ∃ r, tl = [.insertEE r] ∧ r.signerId = s ∧ r.label = l ∧ r.isCurrent = true
  | .«end» .update, tl => tl = []
  | .«end» .commit, tl => ∃ t, tl = [.freeLock n t]
  | _, _ => False

/-- How many of a client's calls were an `InsertEE` that returned nil. -/
def insertsDone (results : List Ret) : Nat := results.count (.insert none)

@[simp] theorem insertsDone_nil : insertsDone [] = 0 := rfl

@[simp] theorem insertsDone_append (rs rs' : List Ret) :
    insertsDone (rs ++ rs') = insertsDone rs + insertsDone rs' := List.count_append _ _ _

@[simp] theorem insertsDone_single {v : Ret} :
    insertsDone [v] = if v = .insert none then 1 else 0 := by
  by_cases h : v = .insert none <;> simp [insertsDone, List.count_singleton', h, eq_comm]

/-- The writes of an open transaction whose lock row is `n`, at program point `pc`, after
`k` completed `InsertEE` calls. -/
def Shape (n k : Nat) (pc : Pc) (ws : List Write) : Prop :=
  ∃ rs tl, rs.length = k ∧ (∀ r ∈ rs, r.isCurrent = true) ∧
    ws = .insertLock (lockRow n) :: blocks rs ++ tl ∧ TailOK n pc tl

section
variable {n k : Nat} {ws : List Write}

theorem Shape.retarget {pc pc' : Pc} (h : Shape n k pc ws)
    (ht : ∀ tl, TailOK n pc tl → TailOK n pc' tl) : Shape n k pc' ws := by
  obtain ⟨rs, tl, hk, hc, rfl, htl⟩ := h
  exact ⟨rs, tl, hk, hc, rfl, ht tl htl⟩

/-- `InsertEE`'s `INSERT` adds its row. -/
theorem Shape.insertEE {x5u label s : String} {h : Nat} {r : EERow}
    (hw : Shape n k (.insert (.insert x5u label s h)) ws) (hs : r.signerId = s)
    (hl : r.label = label) (hr : r.isCurrent = true) :
    Shape n k (.insert (.demote s label)) (ws ++ [.insertEE r]) := by
  obtain ⟨rs, tl, hk, hc, rfl, htl⟩ := hw
  simp only [TailOK] at htl; subst htl
  exact ⟨rs, [.insertEE r], hk, hc, by simp, r, rfl, hs, hl, hr⟩

/-- `InsertEE`'s `UPDATE` completes a block. -/
theorem Shape.demote {s label : String} (hw : Shape n k (.insert (.demote s label)) ws) :
    Shape n (k + 1) .idle (ws ++ [.demote s label]) := by
  obtain ⟨rs, tl, rfl, hc, rfl, r, rfl, rfl, rfl, hr⟩ := hw
  refine ⟨rs ++ [r], [], by simp, ?_, by simp [blocks_append, blocks, block], rfl⟩
  simpa [or_imp, forall_and] using ⟨hc, hr⟩

/-- `End`'s `UPDATE` releases the lock row. -/
theorem Shape.freeLock (hw : Shape n k (.«end» .update) ws) (t : Int) :
    Shape n k (.«end» .commit) (ws ++ [.freeLock n t]) := by
  obtain ⟨rs, tl, hk, hc, rfl, htl⟩ := hw
  simp only [TailOK] at htl; subst htl
  exact ⟨rs, [.freeLock n t], hk, hc, by simp, t, rfl⟩

/-- What `End` commits has the committed shape. -/
theorem Shape.committed (hw : Shape n k (.«end» .commit) ws) : CommittedShape ws := by
  obtain ⟨rs, tl, -, hc, rfl, t, rfl⟩ := hw
  exact ⟨n, rs, t, hc, rfl⟩

end

/-! ## What a committed transaction adds -/

section
variable {rs : List EERow} {t : Tables}

theorem applyAll_blocks_locks :
    ∀ {rs : List EERow} {t : Tables}, (applyAll (blocks rs) t).endentitiesLock = t.endentitiesLock
  | [], _ => rfl
  | r :: rs, t => by
    change (applyAll (blocks rs) (applyAll (block r) t)).endentitiesLock = _
    rw [applyAll_blocks_locks]; rfl

/-- The lock-row part of a committed transaction: its row, released. -/
theorem applyAll_committed_locks {n : Nat} {tm : Int}
    (hf : ∀ x ∈ t.endentitiesLock, x.id < n) :
    (applyAll (.insertLock (lockRow n) :: blocks rs ++ [.freeLock n tm]) t).endentitiesLock =
      t.endentitiesLock ++ [⟨n, false, some tm⟩] := by
  rw [applyAll_append, applyAll_cons]
  simp only [applyAll_cons, applyAll_nil, Write.apply, applyAll_blocks_locks, List.map_append]
  congr 1
  · exact (List.map_congr_left fun x hx => by simp [freeRow, (hf x hx).ne]).trans (List.map_id _)
  · simp [freeRow, lockRow]

/-- The `endentities` part of a committed transaction: its `InsertEE` blocks. -/
theorem applyAll_committed_endentities {n : Nat} {tm : Int} :
    (applyAll (.insertLock (lockRow n) :: blocks rs ++ [.freeLock n tm]) t).endentities =
      (applyAll (blocks rs) t).endentities := by
  rw [applyAll_append]
  exact applyAll_endentities_congr (blocks rs) (t := (Write.insertLock (lockRow n)).apply t) rfl

end

/-! ## The lock log -/

/-- A completed lock interval: its holder, and what its release committed. -/
structure Interval where
  holder : Nat
  committed : Option (List Write)

/-- The log entries of completed intervals. -/
def intervalEvents (done : List Interval) : List LockEvent :=
  done.flatMap fun iv => [.acquire iv.holder, .release iv.holder iv.committed]

/-- The log entry of the interval still open. -/
def openEvents : Option Nat → List LockEvent
  | none => []
  | some h => [.acquire h]

/-- The writes the completed intervals committed, in lock order. -/
def committedWrites (done : List Interval) : List Write :=
  done.flatMap fun iv => iv.committed.getD []

/-- The serial run: the completed intervals one after another, from the empty store. -/
def serial (done : List Interval) : Tables := applyAll (committedWrites done) Tables.empty

/-- The lock log is a sequence of disjoint intervals, and the committed tables are
their serial run. -/
def LockLog (db : Server) : Prop :=
  ∃ done : List Interval, db.events = intervalEvents done ++ openEvents db.holder ∧
    db.committed = serial done ∧ ∀ iv ∈ done, ∀ ws, iv.committed = some ws → CommittedShape ws

/-! ## Where each client can be -/

/-- Session `i`'s transaction has ended and it does not hold the lock, or it is
aborted and still holds it. -/
def Broken (db : Server) (i : Nat) : Prop :=
  (db.txs i = .done ∧ db.holder ≠ some i) ∨ (db.txs i = .failed ∧ db.holder = some i)

/-- A client with handle `n` at `pc`: its transaction is broken, or open, holding the
lock, with writes of the right shape after its `k` completed `InsertEE` calls, and a lock
row newer than every committed one. -/
def HandleInv (db : Server) (i n k : Nat) (pc : Pc) : Prop :=
  n < db.lockSeq ∧
    (Broken db i ∨ ∃ st ws, db.txs i = .active st ws ∧ db.holder = some i ∧ Shape n k pc ws ∧
      ∀ r ∈ db.committed.endentitiesLock, r.id < n)

/-- A client inside `BeginEndEntityOperations`. -/
def BeginInv (db : Server) (i : Nat) : BeginPc → Prop
  | .begin => db.txs i = .none ∧ db.holder ≠ some i
  | .lock => db.holder ≠ some i ∧ (db.txs i = .done ∨ ∃ st, db.txs i = .active st [])
  | .lockFailed _ => db.holder ≠ some i ∧ (db.txs i = .failed ∨ db.txs i = .done)
  | .insert =>
    (db.txs i = .done ∧ db.holder ≠ some i) ∨ ∃ st, db.txs i = .active st [] ∧ db.holder = some i
  | .insertFailed _ =>
    (db.txs i = .done ∧ db.holder ≠ some i) ∨ (db.txs i = .failed ∧ db.holder = some i)

/-- Where client `i` can be. -/
def ClientInv (db : Server) (i : Nat) (c : Client) : Prop :=
  match c.pc, c.handle with
  | .begin p, none => c.results = [] ∧ BeginInv db i p
  | .begin _, some _ => False
  | .idle, none =>
    db.holder ≠ some i ∧ (db.txs i = .none ∨ db.txs i = .done) ∧ (c.results = [] → db.txs i = .none)
  | .idle, some n => c.results ≠ [] ∧ HandleInv db i n (insertsDone c.results) .idle
  | pc, some n => HandleInv db i n (insertsDone c.results) pc
  | _, none => False

/-- The store invariant. -/
structure Inv (w : World) : Prop where
  /-- The lock log is a sequence of intervals whose serial run is the committed store. -/
  log : LockLog w.db
  /-- Committed lock rows are below the sequence and released. -/
  locks : ∀ r ∈ w.db.committed.endentitiesLock, r.id < w.db.lockSeq ∧ r.isLocked = false
  /-- Every client is where its code says. -/
  clients : ∀ i, ClientInv w.db i (w.clients i)

theorem inv_init : Inv World.init where
  log := ⟨[], rfl, rfl, by simp⟩
  locks := by simp [World.init, Server.init, Tables.empty]
  clients := by intro i; simp [World.init, Server.init, ClientInv]

/-! ## Frames -/

section
variable {db db' : Server} {i n k : Nat} {pc : Pc} {c : Client}

/-- `HandleInv` only reads the client's transaction, whether it holds the lock, the lock
sequence, and — while it holds the lock — the committed lock rows. -/
theorem HandleInv.frame (h : HandleInv db i n k pc) (htx : db'.txs i = db.txs i)
    (hh : db'.holder = some i ↔ db.holder = some i) (hseq : db.lockSeq ≤ db'.lockSeq)
    (hc : db.holder = some i → db'.committed = db.committed) : HandleInv db' i n k pc := by
  obtain ⟨hn, h⟩ := h
  refine ⟨by omega, ?_⟩
  simp only [Broken, ne_eq, htx, hh]
  rcases h with h | ⟨st, ws, ha, hho, hs, hf⟩
  · exact .inl h
  · exact .inr ⟨st, ws, ha, hho, hs, by rwa [hc hho]⟩

theorem BeginInv.frame {p : BeginPc} (h : BeginInv db i p) (htx : db'.txs i = db.txs i)
    (hh : db'.holder = some i ↔ db.holder = some i) : BeginInv db' i p := by
  cases p <;> simpa only [BeginInv, ne_eq, htx, hh] using h

theorem ClientInv.frame (h : ClientInv db i c) (htx : db'.txs i = db.txs i)
    (hh : db'.holder = some i ↔ db.holder = some i) (hseq : db.lockSeq ≤ db'.lockSeq)
    (hc : db.holder = some i → db'.committed = db.committed) : ClientInv db' i c := by
  obtain ⟨handle, pc, results⟩ := c
  cases handle <;> cases pc <;> simp only [ClientInv] at h ⊢
  case none.idle => simpa only [ne_eq, htx, hh] using h
  case none.begin => exact ⟨h.1, h.2.frame htx hh⟩
  case some.idle => exact ⟨h.1, h.2.frame htx hh hseq hc⟩
  all_goals first | exact h | exact h.frame htx hh hseq hc

end

/-! ## One statement of one client -/

section
variable {db db₁ : Server} {i n : Nat} {stmt : Stmt} {ok : Bool} {r : SqlResult}
  {o : Option (List Write)} {c : Client} {k : SqlResult → Next Pc Ret}

theorem Server.finish_holder_ne : (db.finish i o).holder ≠ some i := by
  unfold Server.finish; split <;> simp_all

theorem Server.finish_broken : Broken (db.finish i o) i := .inl ⟨by simp, Server.finish_holder_ne⟩

theorem Server.finish_released' : Released db (db.finish i o) i o :=
  Server.finish_released rfl rfl

/-- A statement that does not succeed on an open transaction leaves it broken. -/
theorem exec_broken (h : db.exec i stmt ok = some (db₁, r)) (hs : stmt ≠ .begin)
    (hb : Broken db i ∨ ∃ st ws, db.txs i = .active st ws ∧ db.holder = some i ∧ ok = false) :
    Broken db₁ i := by
  rcases hb with (⟨ht, hh⟩ | ⟨ht, hh⟩) | ⟨st, ws, ht, hh, rfl⟩
  · rw [exec_of_done ht hs] at h; cases h; exact .inl ⟨ht, hh⟩
  · rw [exec_of_failed ht hs] at h
    obtain ⟨rfl, rfl⟩ := eq_of_some_pair h
    cases stmt <;> first | exact Server.finish_broken | exact .inr ⟨ht, hh⟩
  · rw [exec_of_active ht hs, if_neg Bool.false_ne_true] at h
    obtain ⟨rfl, rfl⟩ := eq_of_some_pair h
    cases stmt <;> first | exact Server.finish_broken | exact .inr ⟨by simp [Server.execFail], hh⟩

/-- `tx.Commit()` succeeds only on an open transaction the server lets commit. -/
theorem exec_commit_ok {a : Answer} (h : db.exec i .commit ok = some (db₁, .ok a)) :
    ∃ st ws, db.txs i = .active st ws ∧ ok = true ∧
      db₁ = { db with committed := applyAll ws db.committed }.finish i (some ws) := by
  cases ht : db.txs i with
  | active st ws =>
    rw [exec_of_active ht (by simp)] at h
    cases ok
    · simp [Server.execFail] at h
    · simp only [if_true, Server.execOk, Option.some.injEq, Prod.mk.injEq] at h
      exact ⟨st, ws, rfl, rfl, h.1.symm⟩
  | failed => rw [exec_of_failed ht (by simp)] at h; simp [Server.execAborted] at h
  | done => rw [exec_of_done ht (by simp)] at h; simp at h
  | none => rw [exec_of_none ht (by simp)] at h; simp at h

/-- A `COMMIT` the server carries out ends the transaction and releases the lock. -/
theorem exec_commit_broken {a : Answer} (h : db.exec i .commit true = some (db₁, .ok a)) :
    Broken db₁ i := by
  obtain ⟨_, _, -, -, rfl⟩ := exec_commit_ok h
  exact Server.finish_broken

/-- Outside `BeginEndEntityOperations`, a client whose transaction is broken is where
its code says, whatever its statement returned. -/
theorem clientInv_after_broken (hc : c.handle = some n) (hb : Broken db₁ i)
    (hn : n < db₁.lockSeq) (hpc : ∀ p, c.pc ≠ .begin p) (hprog : c.pc.prog n = some (stmt, k)) :
    ClientInv db₁ i (c.after (k r)) := by
  obtain ⟨handle, pc, results⟩ := c
  simp only at hc hpc; subst hc
  have hinv : ∀ k pc, HandleInv db₁ i n k pc := fun _ _ => ⟨hn, .inl hb⟩
  cases pc with
  | idle => simp [Pc.prog] at hprog
  | begin p => exact absurd rfl (hpc p)
  | lookup s m =>
    simp only [Pc.prog, Option.some.injEq, Prod.mk.injEq] at hprog
    obtain ⟨-, rfl⟩ := hprog
    simp [Client.after, ClientInv, hinv]
  | insert p =>
    simp only [Pc.prog, Option.some.injEq, Prod.mk.injEq] at hprog
    obtain ⟨-, rfl⟩ := hprog
    simp only [Next.map]; split <;> simp [Client.after, ClientInv, hinv]
  | «end» p =>
    simp only [Pc.prog, Option.some.injEq, Prod.mk.injEq] at hprog
    obtain ⟨-, rfl⟩ := hprog
    simp only [Next.map]; split <;> simp [Client.after, ClientInv, hinv]

/-- **`GetLabelOfLatestEE`, `InsertEE` and `End` keep their client where the code says.** -/
theorem clientInv_run_handle (hc : c.handle = some n) (hpc : ∀ p, c.pc ≠ .begin p)
    (hinv : HandleInv db i n (insertsDone c.results) c.pc) (hprog : c.pc.prog n = some (stmt, k))
    (hexec : db.exec i stmt ok = some (db₁, r)) : ClientInv db₁ i (c.after (k r)) := by
  have hs : stmt ≠ .begin := by
    rintro rfl
    obtain ⟨handle, pc, results⟩ := c
    cases pc <;> simp [Pc.prog, getLabelOfLatestEE] at hprog hpc
    case insert p => cases p <;> simp [insertEE] at hprog
    case «end» p => cases p <;> simp [«end»] at hprog
  have hn : n < db₁.lockSeq := lt_of_lt_of_le hinv.1 (exec_lockSeq_le hexec)
  rcases hinv with ⟨-, hb | ⟨st, ws, ht, hh, hw, hf⟩⟩
  · exact clientInv_after_broken hc (exec_broken hexec hs (.inl hb)) hn hpc hprog
  cases ok
  · exact clientInv_after_broken hc (exec_broken hexec hs (.inr ⟨st, ws, ht, hh, rfl⟩)) hn hpc hprog
  rw [exec_of_active ht hs, if_pos rfl] at hexec
  obtain ⟨handle, pc, results⟩ := c
  simp only at hc hpc hw; subst hc
  cases pc with
  | idle => simp [Pc.prog] at hprog
  | begin p => exact absurd rfl (hpc p)
  | lookup s m =>
    simp only [Pc.prog, getLabelOfLatestEE, Option.some.injEq, Prod.mk.injEq] at hprog
    obtain ⟨rfl, rfl⟩ := hprog
    have hw' : Shape n (insertsDone results) .idle ws := hw.retarget fun _ h => h
    simp only [Server.execOk] at hexec
    cases hexec
    exact ⟨by simp [Client.after, Next.map], hn,
      .inr ⟨st, ws, ht, hh, by simpa [Client.after, Next.map] using hw', hf⟩⟩
  | insert p =>
    cases p with
    | insert x5u label s h =>
      simp only [Pc.prog, insertEE, Option.some.injEq, Prod.mk.injEq] at hprog
      obtain ⟨rfl, rfl⟩ := hprog
      cases hexec
      exact ⟨hn, .inr ⟨st, _, by simp, hh,
        hw.insertEE (r := ⟨db.eeSeq, some x5u, label, s, h, true, st⟩) rfl rfl rfl, hf⟩⟩
    | demote s label =>
      simp only [Pc.prog, insertEE, Option.some.injEq, Prod.mk.injEq] at hprog
      obtain ⟨rfl, rfl⟩ := hprog
      cases hexec
      exact ⟨by simp [Client.after, Next.map], hn, .inr ⟨st, ws ++ [.demote s label], by simp, hh,
        by simpa [Client.after, Next.map] using hw.demote, hf⟩⟩
    | insertFailed e | demoteFailed e => obtain ⟨_, _, _, _, _, ⟨⟩⟩ := hw
  | «end» p =>
    cases p with
    | update =>
      simp only [Pc.prog, «end», Option.some.injEq, Prod.mk.injEq] at hprog
      obtain ⟨rfl, rfl⟩ := hprog
      cases hexec
      exact ⟨hn, .inr ⟨st, _, by simp, hh, hw.freeLock st, hf⟩⟩
    | commit =>
      simp only [Pc.prog, «end», Option.some.injEq, Prod.mk.injEq] at hprog
      obtain ⟨rfl, rfl⟩ := hprog
      cases hexec
      exact ⟨by simp [Client.after, Next.map], hn, .inl Server.finish_broken⟩
    | updateFailed e | commitFailed e => obtain ⟨_, _, _, _, _, ⟨⟩⟩ := hw

/-- **`BeginEndEntityOperations` keeps its client where the code says.** -/
theorem clientInv_run_begin {p : BeginPc}
    (hlocks : ∀ x ∈ db.committed.endentitiesLock, x.id < db.lockSeq)
    (hc : c.handle = none) (hpc : c.pc = .begin p) (hres : c.results = [])
    (hinv : BeginInv db i p) (hprog : c.pc.prog n = some (stmt, k))
    (hexec : db.exec i stmt ok = some (db₁, r)) : ClientInv db₁ i (c.after (k r)) := by
  obtain ⟨handle, pc, results⟩ := c
  simp only at hc hpc hres; subst hc hpc hres
  simp only [Pc.prog, Option.some.injEq, Prod.mk.injEq] at hprog
  obtain ⟨rfl, rfl⟩ := hprog
  cases p with
  | begin =>
    obtain ⟨ht, hh⟩ := hinv
    rw [beginEndEntityOperations, exec_begin] at hexec
    cases ok <;> simp only [Bool.false_eq_true, if_false, if_true, Option.some.injEq,
      Prod.mk.injEq] at hexec <;> obtain ⟨rfl, rfl⟩ := hexec <;>
      simp [Next.map, beginEndEntityOperations, Client.after, ClientInv, BeginInv, ht, hh]
  | lock =>
    obtain ⟨hh, ht | ⟨st, ht⟩⟩ := hinv
    · rw [beginEndEntityOperations, exec_of_done ht (by simp)] at hexec; cases hexec
      simp [Next.map, beginEndEntityOperations, Client.after, ClientInv, BeginInv, ht, hh]
    · rw [beginEndEntityOperations, exec_of_active ht (by simp)] at hexec
      cases ok
      · cases hexec
        simp [Next.map, beginEndEntityOperations, Client.after, ClientInv, BeginInv, hh,
          Server.execFail]
      · simp only [if_true, Server.execOk] at hexec
        split at hexec
        · cases hexec
          simp [Next.map, beginEndEntityOperations, Client.after, ClientInv, BeginInv, ht]
        · split at hexec
          · simp_all
          · cases hexec
  | lockFailed e =>
    obtain ⟨hh, ht | ht⟩ := hinv
    · rw [beginEndEntityOperations, exec_of_failed ht (by simp)] at hexec; cases hexec
      simp [Next.map, beginEndEntityOperations, Client.after, ClientInv, Server.execAborted,
        Server.finish_holder_ne]
    · rw [beginEndEntityOperations, exec_of_done ht (by simp)] at hexec; cases hexec
      simp [Next.map, beginEndEntityOperations, Client.after, ClientInv, ht, hh]
  | insert =>
    rcases hinv with ⟨ht, hh⟩ | ⟨st, ht, hh⟩
    · rw [beginEndEntityOperations, exec_of_done ht (by simp)] at hexec; cases hexec
      simp [Next.map, beginEndEntityOperations, Client.after, ClientInv, BeginInv, ht, hh]
    · rw [beginEndEntityOperations, exec_of_active ht (by simp)] at hexec
      cases ok
      · cases hexec
        simp [Next.map, beginEndEntityOperations, Client.after, ClientInv, BeginInv, hh,
          Server.execFail]
      · cases hexec
        refine ⟨by simp [Next.map, Client.after, beginEndEntityOperations], by simp,
          .inr ⟨st, [.insertLock (lockRow db.lockSeq)], by simp [lockRow], hh, ?_, hlocks⟩⟩
        exact ⟨[], [], by simp [Client.after, Next.map, beginEndEntityOperations], by simp, rfl, rfl⟩
  | insertFailed e =>
    rcases hinv with ⟨ht, hh⟩ | ⟨ht, hh⟩
    · rw [beginEndEntityOperations, exec_of_done ht (by simp)] at hexec; cases hexec
      simp [Next.map, beginEndEntityOperations, Client.after, ClientInv, ht, hh]
    · rw [beginEndEntityOperations, exec_of_failed ht (by simp)] at hexec; cases hexec
      simp [Next.map, beginEndEntityOperations, Client.after, ClientInv, Server.execAborted,
        Server.finish_holder_ne]

end


/-! ## The lock log moves with the lock -/

section
variable {db db' : Server} {i : Nat}

theorem LockLog.of_quiet (h : LockLog db) (hc : db'.committed = db.committed)
    (hh : db'.holder = db.holder) (he : db'.events = db.events) : LockLog db' := by
  rw [LockLog, hc, hh, he]; exact h

theorem LockLog.acquire (h : LockLog db) (h0 : db.holder = none)
    (hc : db'.committed = db.committed) (hh : db'.holder = some i)
    (he : db'.events = db.events ++ [.acquire i]) : LockLog db' := by
  obtain ⟨done, hev, hser, hsh⟩ := h
  exact ⟨done, by simp [he, hev, hh, h0, openEvents], hc ▸ hser, hsh⟩

/-- The holder's release closes its interval; a commit by anyone else is impossible. -/
theorem LockLog.release {o : Option (List Write)} (h : LockLog db) (hr : Released db db' i o)
    (hc : db'.committed = applyAll (o.getD []) db.committed)
    (ho : ∀ ws, o = some ws → CommittedShape ws ∧ db.holder = some i) : LockLog db' := by
  obtain ⟨done, hev, hser, hsh⟩ := h
  unfold Released at hr
  split at hr
  · rename_i hi
    refine ⟨done ++ [⟨i, o⟩], ?_, ?_, ?_⟩
    · simp [hr.2, hev, hr.1, hi, intervalEvents, openEvents]
    · simp [hc, hser, serial, committedWrites, applyAll_append]
    · simp only [List.mem_append, List.mem_singleton]
      rintro iv (hiv | rfl) ws hws
      · exact hsh iv hiv ws hws
      · exact (ho ws hws).1
  · rename_i hi
    cases o with
    | some ws => exact absurd (ho ws rfl).2 hi
    | none => exact LockLog.of_quiet ⟨done, hev, hser, hsh⟩ (by simpa using hc) hr.1 hr.2

end

/-! ## Every step keeps the invariant -/

/-- Only `End`'s last point commits. -/
theorem Pc.prog_commit {pc : Pc} {n : Nat} {k : SqlResult → Next Pc Ret}
    (h : pc.prog n = some (.commit, k)) : pc = .«end» .commit := by
  cases pc <;> simp [Pc.prog, getLabelOfLatestEE] at h
  case begin p => cases p <;> simp [beginEndEntityOperations] at h
  case insert p => cases p <;> simp [insertEE] at h
  case «end» p => cases p <;> simp [Database.«end»] at h ⊢

/-- A client whose `COMMIT` reply is lost goes on to `End`'s rollback, having returned
nothing. -/
theorem Client.after_commitLost {c : Client} {k : SqlResult → Next Pc Ret}
    (hprog : c.pc.prog (c.handle.getD 0) = some (.commit, k)) :
    c.after (k (.error .failed)) = { c with pc := .«end» (.commitFailed .failed) } := by
  obtain ⟨handle, pc, results⟩ := c
  have hpc := Pc.prog_commit hprog
  simp only at hpc; subst hpc
  simp only [Pc.prog, Option.some.injEq, Prod.mk.injEq] at hprog
  obtain ⟨-, rfl⟩ := hprog
  rfl

/-- A client that commits holds the lock, and its writes are a committed transaction's:
its fresh lock row `n`, its `InsertEE` blocks, the release of `n`. -/
theorem commit_shape {db : Server} {i : Nat} {c : Client} {k : SqlResult → Next Pc Ret}
    {st : Int} {ws : List Write} (hci : ClientInv db i c)
    (hprog : c.pc.prog (c.handle.getD 0) = some (.commit, k)) (ht : db.txs i = .active st ws) :
    db.holder = some i ∧ ∃ n rs tm, (∀ r ∈ rs, r.isCurrent = true) ∧
      ws = .insertLock (lockRow n) :: blocks rs ++ [.freeLock n tm] ∧ n < db.lockSeq ∧
      ∀ x ∈ db.committed.endentitiesLock, x.id < n := by
  obtain ⟨handle, pc, results⟩ := c
  have hpc := Pc.prog_commit hprog
  simp only at hpc; subst hpc
  cases handle with
  | none => exact hci.elim
  | some n =>
    obtain ⟨hn, (⟨ht', -⟩ | ⟨ht', -⟩) | ⟨st', ws', ht', hh, hw, hf⟩⟩ := hci
    · simp [ht] at ht'
    · simp [ht] at ht'
    · rw [ht] at ht'; cases ht'
      obtain ⟨rs, tl, -, hc, rfl, tm, rfl⟩ := hw
      exact ⟨hh, n, rs, tm, hc, rfl, hn, hf⟩


section
variable {db : Server} {i : Nat} {c : Client}

/-- A call starts where the code says. -/
theorem clientInv_call {k : Call} (h : ClientInv db i c) (hk : k.allowed c = true) :
    ClientInv db i { c with pc := k.entry } := by
  obtain ⟨handle, pc, results⟩ := c
  cases k <;> simp only [Call.allowed, Bool.and_eq_true, beq_iff_eq] at hk <;>
    obtain ⟨rfl, hk⟩ := hk
  case mk.beginEndEntityOperations.intro =>
    simp only [List.isEmpty_iff] at hk; subst hk
    cases handle with
    | none => exact ⟨rfl, h.2.2 rfl, h.1⟩
    | some n => exact absurd rfl h.1
  all_goals
    obtain ⟨n, rfl⟩ := Option.isSome_iff_exists.mp hk
    obtain ⟨-, hn, hb | ⟨st, ws, ht, hh, hw, hf⟩⟩ := h
    · exact ⟨hn, .inl hb⟩
    · exact ⟨hn, .inr ⟨st, ws, ht, hh, hw.retarget fun _ h => h, hf⟩⟩

/-- When the server ends a client's open or aborted transaction, the client is still
where its code says. -/
theorem clientInv_finish (h : ClientInv db i c) (ht : db.txs i ≠ .none ∧ db.txs i ≠ .done) :
    ClientInv (db.finish i none) i c := by
  obtain ⟨handle, pc, results⟩ := c
  have hb : Broken (db.finish i none) i := Server.finish_broken
  obtain ⟨hdone, hne⟩ : (db.finish i none).txs i = .done ∧ (db.finish i none).holder ≠ some i :=
    ⟨by simp, Server.finish_holder_ne⟩
  cases handle <;> cases pc <;> simp only [ClientInv] at h ⊢
  case none.idle => exact absurd h.2.1 (by tauto)
  case none.begin p =>
    cases p <;> simp only [BeginInv] at h ⊢ <;> try tauto
  case some.idle => exact ⟨h.1, by simpa using h.2.1, .inl hb⟩
  all_goals first | exact h | exact ⟨by simpa using h.1, .inl hb⟩

end

section
variable {w w' : World} {i : Nat}

theorem clients_update {c : Client} (h : Inv w) (hi : ClientInv w.db i c) :
    ∀ j, ClientInv w.db j (Function.update w.clients i c j) := by
  intro j
  by_cases hj : j = i
  · subst hj; simpa using hi
  · simpa [Function.update_noteq hj] using h.clients j

theorem inv_call {k : Call} (h : Inv w) (hs : step w (.call i k) = some w') : Inv w' := by
  simp only [step] at hs
  split at hs
  · cases hs; exact ⟨h.log, h.locks, clients_update h (clientInv_call (h.clients i) ‹_›)⟩
  · cases hs

theorem inv_abort (h : Inv w) (hs : step w (.abort i) = some w') : Inv w' := by
  simp only [step, Option.some.injEq] at hs; subst hs
  simp only [Server.abort]
  split
  all_goals first
    | exact h
    | refine ⟨h.log.release Server.finish_released' (by simp) (by simp), by simpa using h.locks,
        fun j => ?_⟩
      by_cases hj : j = i
      · subst hj; exact clientInv_finish (h.clients j) (by simp_all)
      · exact (h.clients j).frame (by simp [Function.update_noteq hj])
          (by unfold Server.finish; split <;> simp_all [eq_comm]) (by simp) (by simp)

end


/-! ### One statement of one client

Every lemma here is about client `i` issuing the statement its program point gives
(`hprog`), which the server answers (`hexec`).
-/

section
variable {w : World} {i : Nat} {stmt : Stmt} {k : SqlResult → Next Pc Ret} {ok : Bool}
  {db₁ : Server} {r : SqlResult}
  (h : Inv w) (hprog : (w.clients i).pc.prog ((w.clients i).handle.getD 0) = some (stmt, k))
  (hexec : w.db.exec i stmt ok = some (db₁, r))
include h hprog hexec

theorem lockLog_run : LockLog db₁ := by
  cases exec_shared hexec with
  | quiet hc hh he => exact h.log.of_quiet hc hh he
  | acquire h0 hc hh he => exact h.log.acquire h0 hc hh he
  | rollback _ hc hr => exact h.log.release hr (by simpa using hc) (by simp)
  | commit ht _ hc hr =>
    obtain ⟨hh, n, rs, tm, hcur, rfl, -⟩ := commit_shape (h.clients i) hprog ht
    exact h.log.release hr (by simpa using hc) fun ws hws => by
      cases hws; exact ⟨⟨n, rs, tm, hcur, rfl⟩, hh⟩

theorem locks_run :
    ∀ x ∈ db₁.committed.endentitiesLock, x.id < db₁.lockSeq ∧ x.isLocked = false := by
  have hseq := exec_lockSeq_le hexec
  have hold : ∀ x ∈ w.db.committed.endentitiesLock, x.id < db₁.lockSeq ∧ x.isLocked = false :=
    fun x hx => ⟨lt_of_lt_of_le (h.locks x hx).1 hseq, (h.locks x hx).2⟩
  cases exec_shared hexec with
  | commit ht _ hc _ =>
    obtain ⟨-, n, rs, tm, -, rfl, hn, hf⟩ := commit_shape (h.clients i) hprog ht
    rw [hc, applyAll_committed_locks hf]
    intro x hx
    rcases List.mem_append.mp hx with hx | hx
    · exact hold x hx
    · simp only [List.mem_singleton] at hx; subst hx; exact ⟨lt_of_lt_of_le hn hseq, rfl⟩
  | quiet hc _ _ | acquire _ hc _ _ | rollback _ hc _ => rw [hc]; exact hold

theorem clientInv_run_self : ClientInv db₁ i ((w.clients i).after (k r)) := by
  have hci := h.clients i
  rcases hc : w.clients i with ⟨handle, pc, results⟩
  rw [hc] at hci hprog
  cases handle with
  | none =>
    cases pc with
    | begin p =>
      exact clientInv_run_begin (fun x hx => (h.locks x hx).1) rfl rfl hci.1 hci.2 hprog hexec
    | idle => simp [Pc.prog] at hprog
    | _ => exact hci.elim
  | some n =>
    refine clientInv_run_handle rfl ?_ ?_ hprog hexec
    · rintro p rfl; exact hci
    · cases pc <;> first | exact hci.elim | exact hci | exact hci.2

theorem clientInv_run_other {j : Nat} (hj : j ≠ i) : ClientInv db₁ j (w.clients j) := by
  refine (h.clients j).frame (exec_txs_ne hexec hj) ((exec_shared hexec).holder_iff hj)
    (exec_lockSeq_le hexec) fun hh => ?_
  cases exec_shared hexec with
  | commit ht =>
    exact absurd ((commit_shape (h.clients i) hprog ht).1.symm.trans hh) (by simp [Ne.symm hj])
  | quiet hc _ _ | acquire _ hc _ _ | rollback _ hc _ => exact hc

end

section
variable {w w' : World} {i : Nat}

theorem inv_run {ok : Bool} (h : Inv w) (hs : step w (.run i ok) = some w') : Inv w' := by
  obtain ⟨stmt, k, db₁, r, hprog, hexec, rfl⟩ := step_run hs
  refine ⟨lockLog_run h hprog hexec, locks_run h hprog hexec, fun j => ?_⟩
  by_cases hj : j = i
  · subst hj; simpa using clientInv_run_self h hprog hexec
  · simpa [Function.update_noteq hj] using clientInv_run_other h hprog hexec hj

/-- A client whose `COMMIT` went through but whose reply was lost is at `End`'s rollback
of a transaction that has ended, where its code says. -/
theorem clientInv_commitLost_self {k : SqlResult → Next Pc Ret} {db₁ : Server} {a : Answer}
    (h : Inv w) (hprog : (w.clients i).pc.prog ((w.clients i).handle.getD 0) = some (.commit, k))
    (hexec : w.db.exec i .commit true = some (db₁, .ok a)) :
    ClientInv db₁ i ((w.clients i).after (k (.error .failed))) := by
  have hci := h.clients i
  rcases hc : w.clients i with ⟨handle, pc, results⟩
  rw [hc] at hci hprog
  have hpc := Pc.prog_commit hprog
  simp only at hpc; subst hpc
  cases handle with
  | none => exact hci.elim
  | some n =>
    exact clientInv_after_broken rfl (exec_commit_broken hexec)
      (lt_of_lt_of_le hci.1 (exec_lockSeq_le hexec)) (fun _ => by simp) hprog

theorem inv_commitLost (h : Inv w) (hs : step w (.commitLost i) = some w') : Inv w' := by
  obtain ⟨k, db₁, a, hprog, hexec, rfl⟩ := step_commitLost hs
  refine ⟨lockLog_run h hprog hexec, locks_run h hprog hexec, fun j => ?_⟩
  by_cases hj : j = i
  · subst hj; simpa using clientInv_commitLost_self h hprog hexec
  · simpa [Function.update_noteq hj] using clientInv_run_other h hprog hexec hj

/-- **The invariant is preserved by every step.** -/
theorem inv_step {l : Label} (h : Inv w) (hs : step w l = some w') : Inv w' := by
  cases l with
  | call i k => exact inv_call h hs
  | run i ok => exact inv_run h hs
  | abort i => exact inv_abort h hs
  | commitLost i => exact inv_commitLost h hs
  | tick =>
    simp only [step, Option.some.injEq] at hs; subst hs
    exact ⟨h.log, h.locks, h.clients⟩

/-- **The invariant holds in every reachable world.** -/
theorem inv_reachable (h : Reachable w) : Inv w := by
  induction h with
  | init => exact inv_init
  | tail _ hs ih => exact inv_step ih hs

end

end Autograph.Database
