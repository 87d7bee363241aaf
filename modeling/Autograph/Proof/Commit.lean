import Autograph.Proof.Invariant

/-!
# A transaction commits all at once

The committed tables change in exactly one kind of step: a `COMMIT` the server carries out
on an open transaction. What it adds is the whole transaction (`CommitsWhole`): the rows and
demotions of every `InsertEE` it made, and its own lock row, already released. Every other
step — a failed statement, a rollback, a dropped connection, a client that never comes
back — leaves the committed tables as they were (`step_commits`).

`End` returns nil only in such a step, for its own transaction (`end_nil_commits`). The
converse does not hold: when the connection breaks after the server committed but before
the reply arrives, the transaction is committed whole (`commitLost_commits`) and `End`
returns "failed to commit transaction in database".
-/

namespace Autograph.Database

/-- In the step from `w` to `w'`, client `i`'s `End` returned nil. -/
def EndReturnedNil (w w' : World) (i : Nat) : Prop :=
  (w'.clients i).results = (w.clients i).results ++ [.«end» none]

/-- In a step from `db` to `db'`, session `i`'s transaction is committed whole: it was open
with writes of the committed shape — its lock row `n`, the blocks of its `InsertEE` calls,
the release of `n` — it has ended, and the committed tables gain exactly its `endentities`
writes and the row `n`, released at `tm`. -/
def CommitsWhole (db db' : Server) (i : Nat) : Prop :=
  ∃ st n rs tm, (∀ r ∈ rs, r.isCurrent = true) ∧
    db.txs i = .active st (.insertLock (lockRow n) :: blocks rs ++ [.freeLock n tm]) ∧
    db'.txs i = .done ∧
    db'.committed = ⟨(applyAll (blocks rs) db.committed).endentities,
      db.committed.endentitiesLock ++ [⟨n, false, some tm⟩]⟩

theorem Client.after_results_eq {c : Client} {nx : Next Pc Ret} {v : Ret}
    (h : (c.after nx).results = c.results ++ [v]) : nx = .ret v := by
  cases nx <;> simp_all [Client.after]

/-- Only `End`'s commit point returns nil from `End`, and only on success. -/
theorem Pc.prog_end_nil {pc : Pc} {n : Nat} {stmt : Stmt} {k : SqlResult → Next Pc Ret}
    {r : SqlResult} (h : pc.prog n = some (stmt, k)) (hk : k r = .ret (.«end» none)) :
    pc = .«end» .commit ∧ stmt = .commit ∧ ∃ a, r = .ok a := by
  cases pc <;> simp only [Pc.prog, Option.some.injEq, Prod.mk.injEq, reduceCtorEq] at h
  all_goals obtain ⟨rfl, rfl⟩ := h
  case begin p =>
    cases p <;> cases r <;> simp [beginEndEntityOperations, Next.map] at hk
    split at hk <;> simp at hk
  case lookup => simp at hk
  case insert p =>
    cases p <;> cases r <;> simp [insertEE, Next.map] at hk
  case «end» p =>
    cases p <;> cases r <;> simp [Database.«end», Next.map] at hk ⊢

/-- `End`'s commit point returns nil exactly when `tx.Commit()` succeeds. -/
theorem end_commit_returns {n : Nat} {r : SqlResult} :
    (((Database.«end» n .commit).2 r).map Pc.«end» Ret.«end» = .ret (.«end» none)) ↔
      ∃ a, r = .ok a := by
  cases r <;> simp [Database.«end», Next.map]


@[simp] theorem Server.abort_committed {db : Server} {i : Nat} :
    (db.abort i).committed = db.committed := by
  unfold Server.abort; split <;> simp

/-- A `COMMIT` the server carries out commits its client's whole transaction. -/
theorem commit_whole {w : World} {i : Nat} {k : SqlResult → Next Pc Ret} {ok : Bool}
    {db₁ : Server} {a : Answer} (h : Inv w)
    (hprog : (w.clients i).pc.prog ((w.clients i).handle.getD 0) = some (.commit, k))
    (hexec : w.db.exec i .commit ok = some (db₁, .ok a)) : CommitsWhole w.db db₁ i := by
  obtain ⟨st, ws, ht, -, rfl⟩ := exec_commit_ok hexec
  obtain ⟨-, n, rs, tm, hc, rfl, -, hf⟩ := commit_shape (h.clients i) hprog ht
  refine ⟨st, n, rs, tm, hc, ht, by simp, ?_⟩
  simp only [Server.finish_committed]
  rw [← @applyAll_committed_endentities rs _ n tm, ← applyAll_committed_locks hf]

section
variable {w w' : World} {l : Label} {i : Nat}

/-- A step that is not a `run` of client `i` leaves what its calls returned unchanged; a
lost `COMMIT` reply returns nothing yet. -/
theorem step_results_of_not_run (hs : step w l = some w') (hl : ∀ ok, l ≠ .run i ok) :
    (w'.clients i).results = (w.clients i).results := by
  cases l with
  | run j ok =>
    obtain ⟨-, -, -, -, -, -, rfl⟩ := step_run hs
    simp [Function.update_noteq (fun h : i = j => hl ok (h ▸ rfl))]
  | commitLost j =>
    obtain ⟨k, _, _, hprog, -, rfl⟩ := step_commitLost hs
    by_cases hij : i = j
    · subst hij; simp [Client.after_commitLost hprog]
    · simp [Function.update_noteq hij]
  | call j k =>
    simp only [step] at hs; split at hs <;> cases hs
    by_cases hij : i = j
    · subst hij; simp
    · simp [Function.update_noteq hij]
  | abort j | tick => simp only [step, Option.some.injEq] at hs; subst hs; rfl

/-- Only a statement of client `i` can make its `End` return. -/
theorem EndReturnedNil.run_label (hs : step w l = some w') (hi : EndReturnedNil w w' i) :
    ∃ ok, l = .run i ok := by
  by_contra hl
  push_neg at hl
  simpa using congrArg List.length (hi.symm.trans (step_results_of_not_run hs hl))

/-- When a client's `End` returns nil, the step committed its whole transaction. -/
theorem end_nil_commits (h : Inv w) (hs : step w l = some w') (hi : EndReturnedNil w w' i) :
    CommitsWhole w.db w'.db i := by
  obtain ⟨ok, rfl⟩ := hi.run_label hs
  obtain ⟨stmt, k, db₁, r, hprog, hexec, rfl⟩ := step_run hs
  simp only [EndReturnedNil, Function.update_same] at hi
  obtain ⟨-, rfl, a, rfl⟩ := Pc.prog_end_nil hprog (Client.after_results_eq hi)
  exact commit_whole h hprog hexec

/-- A `COMMIT` whose reply is lost still commits the whole transaction. -/
theorem commitLost_commits (h : Inv w) (hs : step w (.commitLost i) = some w') :
    CommitsWhole w.db w'.db i := by
  obtain ⟨k, db₁, a, hprog, hexec, rfl⟩ := step_commitLost hs
  exact commit_whole h hprog hexec

/-- Every step leaves the committed tables as they were, or commits one transaction whole. -/
theorem step_commits (h : Inv w) (hs : step w l = some w') :
    w'.db.committed = w.db.committed ∨ ∃ i, CommitsWhole w.db w'.db i := by
  cases l with
  | run j ok =>
    obtain ⟨stmt, k, db₁, r, hprog, hexec, rfl⟩ := step_run hs
    cases exec_shared hexec with
    | quiet hc _ _ | acquire _ hc _ _ | rollback _ hc _ => exact .inl hc
    | commit => exact .inr ⟨j, commit_whole h hprog hexec⟩
  | commitLost j => exact .inr ⟨j, commitLost_commits h hs⟩
  | call j k => simp only [step] at hs; split at hs <;> cases hs; exact .inl rfl
  | abort j => simp only [step, Option.some.injEq] at hs; subst hs; exact .inl (by simp)
  | tick => simp only [step, Option.some.injEq] at hs; subst hs; exact .inl rfl

end

/--
**A transaction commits all at once.**

In every step from a reachable world, the committed tables stay as they were, or one
client's transaction is committed whole: it was open with writes of the committed shape —
its lock row `n`, the blocks of its `InsertEE` calls, the release of `n` — it ends, and the
committed tables gain exactly that transaction's `endentities` writes and the row `n`,
released at `tm`. When a client's `End` returns nil, the step committed that client's
transaction. No committed lock row is ever locked.
-/
theorem end_commits_atomically {w w' : World} {l : Label} (hr : Reachable w)
    (hs : step w l = some w') :
    (∀ i, EndReturnedNil w w' i → CommitsWhole w.db w'.db i) ∧
    (w'.db.committed = w.db.committed ∨ ∃ i, CommitsWhole w.db w'.db i) ∧
    ∀ x ∈ w'.db.committed.endentitiesLock, x.isLocked = false :=
  ⟨fun _ hi => end_nil_commits (inv_reachable hr) hs hi, step_commits (inv_reachable hr) hs,
    fun x hx => ((inv_reachable (.tail hr hs)).locks x hx).2⟩

/-- A client begins, inserts a key and calls `End`, every statement succeeding, up to
`End`'s `COMMIT`. -/
def insertThenEnd : List Label :=
  [.call 0 .beginEndEntityOperations, .run 0 true, .run 0 true, .run 0 true,
   .call 0 (.insertEE "x5u" "label" "signer" 1), .run 0 true, .run 0 true, .call 0 .«end»,
   .run 0 true]

/-- `End`'s `COMMIT` after `insertThenEnd` returns nil and commits the transaction with its
key, and leaves no committed lock row locked. -/
theorem end_commits_atomically_insertThenEnd :
    ∃ w w', Reachable w ∧ step w (.run 0 true) = some w' ∧ EndReturnedNil w w' 0 ∧
      CommitsWhole w.db w'.db 0 ∧ w'.db.committed.endentities.length = 1 ∧
      ∀ x ∈ w'.db.committed.endentitiesLock, x.isLocked = false := by
  obtain ⟨w, w', hw, hs, hnil, hlen⟩ : ∃ w w', run World.init insertThenEnd = some w ∧
      step w (.run 0 true) = some w' ∧ EndReturnedNil w w' 0 ∧
      w'.db.committed.endentities.length = 1 :=
    ⟨_, _, rfl, rfl, rfl, rfl⟩
  have hr := reachable_of_run .init hw
  have hc := end_commits_atomically hr hs
  exact ⟨w, w', hr, hs, hnil, hc.1 0 hnil, hlen, hc.2.2⟩

/-- **`End` can fail on a committed transaction.** After `insertThenEnd`, the server carries
out `End`'s `COMMIT` but the reply is lost: the transaction is committed whole, and `End`
goes on to roll back, which `database/sql` answers with `ErrTxDone`, and returns "failed to
commit transaction in database". The key stays committed. -/
theorem end_fails_after_lost_commit :
    ∃ w w' w'', Reachable w ∧ step w (.commitLost 0) = some w' ∧ CommitsWhole w.db w'.db 0 ∧
      step w' (.run 0 true) = some w'' ∧ w''.db.committed = w'.db.committed ∧
      w'.db.committed.endentities.length = 1 ∧
      (w''.clients 0).results = (w.clients 0).results ++
        [Ret.«end» (some (.wrap "failed to commit transaction in database" .failed))] := by
  obtain ⟨w, w', w'', hw, hs, hs', hc, hlen, hres⟩ : ∃ w w' w'',
      run World.init insertThenEnd = some w ∧ step w (.commitLost 0) = some w' ∧
      step w' (.run 0 true) = some w'' ∧ w''.db.committed = w'.db.committed ∧
      w'.db.committed.endentities.length = 1 ∧
      (w''.clients 0).results = (w.clients 0).results ++
        [Ret.«end» (some (Err.wrap "failed to commit transaction in database" SqlErr.failed))] :=
    ⟨_, _, _, rfl, rfl, rfl, rfl, rfl, by decide⟩
  have hr := reachable_of_run .init hw
  exact ⟨w, w', w'', hr, hs, commitLost_commits (inv_reachable hr) hs, hs', hc, hlen, hres⟩

end Autograph.Database
