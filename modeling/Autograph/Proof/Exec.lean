import Autograph.Database.EndEntity

/-!
# What one statement can do

Every invariant of the store is about the *shared* part of the server — the committed
tables, the lock holder, the ghost lock log — or about one session's own transaction. This
file says once and for all what a single `Server.exec` can do to each, so that the
invariant proofs never unfold the server again.

A statement of session `i`

* leaves every other session's transaction alone (`exec_txs_ne`);
* never moves a sequence backwards (`exec_lockSeq_le`);
* does one of four things to the shared part (`Shared`): nothing, take the free lock,
  end `i`'s transaction without committing, or commit `i`'s writes.

A `run` step and a `commitLost` step both execute the client's next statement
(`step_run`, `step_commitLost`); they differ only in the result the client sees.
-/

namespace Autograph.Database

/-- How the lock and its log move when session `i`'s transaction ends, committing `o`. -/
def Released (db db' : Server) (i : Nat) (o : Option (List Write)) : Prop :=
  if db.holder = some i then db'.holder = none ∧ db'.events = db.events ++ [.release i o]
  else db'.holder = db.holder ∧ db'.events = db.events

/-- The four things a statement of session `i` can do to the shared part of the server. -/
inductive Shared (db db' : Server) (i : Nat) : Stmt → Bool → SqlResult → Prop where
  | quiet {stmt ok r} : db'.committed = db.committed → db'.holder = db.holder →
      db'.events = db.events → Shared db db' i stmt ok r
  | acquire {ok r} : db.holder = none → db'.committed = db.committed →
      db'.holder = some i → db'.events = db.events ++ [.acquire i] →
      Shared db db' i .lockTable ok r
  | rollback {stmt ok r} : db'.txs i = .done → db'.committed = db.committed →
      Released db db' i none → Shared db db' i stmt ok r
  | commit {st ws} : db.txs i = .active st ws → db'.txs i = .done →
      db'.committed = applyAll ws db.committed → Released db db' i (some ws) →
      Shared db db' i .commit true (.ok .done)

section
variable {db db' : Server} {i j : Nat} {o : Option (List Write)}

@[simp] theorem Server.finish_txs : (db.finish i o).txs = Function.update db.txs i .done := by
  unfold Server.finish; split <;> rfl

@[simp] theorem Server.finish_committed : (db.finish i o).committed = db.committed := by
  unfold Server.finish; split <;> rfl

@[simp] theorem Server.finish_lockSeq : (db.finish i o).lockSeq = db.lockSeq := by
  unfold Server.finish; split <;> rfl

theorem Server.finish_released {db₀ : Server} (hh : db₀.holder = db.holder)
    (he : db₀.events = db.events) : Released db (db₀.finish i o) i o := by
  unfold Released Server.finish; split <;> simp_all

theorem Server.finish_shared {stmt ok r} : Shared db (db.finish i none) i stmt ok r :=
  .rollback (by simp) (by simp) (Server.finish_released rfl rfl)

end

/-! ## The statement table, by the state of the session's transaction -/

section
variable {db : Server} {i : Nat} {stmt : Stmt} {ok : Bool}

theorem exec_of_active {st : Int} {ws : List Write} (h : db.txs i = .active st ws)
    (hs : stmt ≠ .begin) :
    db.exec i stmt ok = if ok then db.execOk i st ws stmt else some (db.execFail i stmt) := by
  simp [Server.exec, hs, h]

theorem exec_of_failed (h : db.txs i = .failed) (hs : stmt ≠ .begin) :
    db.exec i stmt ok = some (db.execAborted i stmt) := by
  simp [Server.exec, hs, h]

theorem exec_of_done (h : db.txs i = .done) (hs : stmt ≠ .begin) :
    db.exec i stmt ok = some (db, .error .txDone) := by
  simp [Server.exec, hs, h]

theorem exec_of_none (h : db.txs i = .none) (hs : stmt ≠ .begin) :
    db.exec i stmt ok = some (db, .error .txDone) := by
  simp [Server.exec, hs, h]

theorem exec_begin :
    db.exec i .begin ok =
      if ok then some (db.setTx i (.active db.clock []), .ok .done) else some (db, .error .failed) :=
  by simp [Server.exec]

end

/-! ## Effects on the shared part -/

section
variable {db db' : Server} {i j : Nat} {stmt : Stmt} {ok : Bool} {r : SqlResult}

theorem execOk_shared {st : Int} {ws : List Write} (ha : db.txs i = .active st ws)
    (h : db.execOk i st ws stmt = some (db', r)) : Shared db db' i stmt true r := by
  cases stmt <;> simp only [Server.execOk] at h
  case lockTable =>
    split at h
    · cases h; exact .acquire ‹_› rfl rfl rfl
    · split at h <;> cases h; exact .quiet rfl rfl rfl
  case commit => cases h; exact .commit ha (by simp) (by simp) (Server.finish_released rfl rfl)
  case rollback => cases h; exact Server.finish_shared
  all_goals cases h; exact .quiet rfl rfl rfl

theorem eq_of_some_pair {x : Server × SqlResult} (h : some x = some (db', r)) :
    db' = x.1 ∧ r = x.2 := by
  cases h; exact ⟨rfl, rfl⟩

theorem execFail_shared : Shared db (db.execFail i stmt).1 i stmt false (db.execFail i stmt).2 := by
  cases stmt <;> first | exact Server.finish_shared | exact .quiet rfl rfl rfl

theorem execAborted_shared :
    Shared db (db.execAborted i stmt).1 i stmt ok (db.execAborted i stmt).2 := by
  cases stmt <;> first | exact Server.finish_shared | exact .quiet rfl rfl rfl

theorem exec_shared (h : db.exec i stmt ok = some (db', r)) : Shared db db' i stmt ok r := by
  by_cases hb : stmt = .begin
  · subst hb; rw [exec_begin] at h; split at h <;> cases h <;> exact .quiet rfl rfl rfl
  · cases ht : db.txs i with
    | active st ws =>
      rw [exec_of_active ht hb] at h
      cases ok
      · rw [if_neg Bool.false_ne_true] at h
        obtain ⟨rfl, rfl⟩ := eq_of_some_pair h; exact execFail_shared
      · exact execOk_shared ht (by rwa [if_pos rfl] at h)
    | failed =>
      rw [exec_of_failed ht hb] at h
      obtain ⟨rfl, rfl⟩ := eq_of_some_pair h; exact execAborted_shared
    | done => rw [exec_of_done ht hb] at h; cases h; exact .quiet rfl rfl rfl
    | none => rw [exec_of_none ht hb] at h; cases h; exact .quiet rfl rfl rfl

theorem exec_txs_ne (h : db.exec i stmt ok = some (db', r)) (hj : j ≠ i) :
    db'.txs j = db.txs j := by
  unfold Server.exec at h
  split at h
  · split at h <;> cases h <;> simp [Function.update_noteq hj]
  · split at h
    · split at h
      · cases stmt <;> simp only [Server.execOk] at h <;>
          (try split at h) <;> (try split at h) <;> cases h <;> simp [Function.update_noteq hj]
      · obtain ⟨rfl, rfl⟩ := eq_of_some_pair h
        cases stmt <;> simp [Server.execFail, Function.update_noteq hj]
    · obtain ⟨rfl, rfl⟩ := eq_of_some_pair h
      cases stmt <;> simp [Server.execAborted, Function.update_noteq hj]
    all_goals cases h; rfl

theorem exec_lockSeq_le (h : db.exec i stmt ok = some (db', r)) : db.lockSeq ≤ db'.lockSeq := by
  unfold Server.exec at h
  split at h
  · split at h <;> cases h <;> simp
  · split at h
    · split at h
      · cases stmt <;> simp only [Server.execOk] at h <;>
          (try split at h) <;> (try split at h) <;> cases h <;> simp
      · obtain ⟨rfl, rfl⟩ := eq_of_some_pair h; cases stmt <;> simp [Server.execFail]
    · obtain ⟨rfl, rfl⟩ := eq_of_some_pair h; cases stmt <;> simp [Server.execAborted]
    all_goals cases h; exact le_rfl

end


/-- A statement of session `i` neither gives the lock to nor takes it from anyone else. -/
theorem Shared.holder_iff {db db' : Server} {i j : Nat} {stmt : Stmt} {ok : Bool}
    {r : SqlResult} (h : Shared db db' i stmt ok r) (hj : j ≠ i) :
    db'.holder = some j ↔ db.holder = some j := by
  have hr : ∀ {o}, Released db db' i o → (db'.holder = some j ↔ db.holder = some j) := by
    intro o hr; unfold Released at hr; split at hr <;> simp_all [eq_comm]
  cases h with
  | quiet _ hh _ => rw [hh]
  | acquire h0 _ hh _ => simp [h0, hh, Ne.symm hj]
  | rollback _ _ hrel => exact hr hrel
  | commit _ _ _ hrel => exact hr hrel


/-- What a `run` step is: the client's next statement, executed, and the client moved on by
its result. -/
theorem step_run {w w' : World} {i : Nat} {ok : Bool} (hs : step w (.run i ok) = some w') :
    ∃ stmt k db₁ r, (w.clients i).pc.prog ((w.clients i).handle.getD 0) = some (stmt, k) ∧
      w.db.exec i stmt ok = some (db₁, r) ∧
      w' = ⟨db₁, Function.update w.clients i ((w.clients i).after (k r))⟩ := by
  simp only [step] at hs
  split at hs
  · cases hs
  · rename_i stmt k hprog
    split at hs
    · cases hs
    · rename_i db₁ r hexec
      cases hs
      exact ⟨stmt, k, db₁, r, hprog, hexec, rfl⟩

/-- What a `commitLost` step is: the client's `COMMIT`, executed with success, and the client
moved on by a failure. -/
theorem step_commitLost {w w' : World} {i : Nat} (hs : step w (.commitLost i) = some w') :
    ∃ k db₁ a, (w.clients i).pc.prog ((w.clients i).handle.getD 0) = some (.commit, k) ∧
      w.db.exec i .commit true = some (db₁, .ok a) ∧
      w' = ⟨db₁, Function.update w.clients i ((w.clients i).after (k (.error .failed)))⟩ := by
  simp only [step] at hs
  split at hs
  · rename_i k hprog
    split at hs
    · rename_i db₁ a hexec
      cases hs
      exact ⟨k, db₁, a, hprog, hexec, rfl⟩
    · cases hs
  · cases hs

end Autograph.Database
