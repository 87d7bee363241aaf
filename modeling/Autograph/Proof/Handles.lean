import Autograph.Proof.ErrorPaths

/-!
# No two clients share a handle

`BeginEndEntityOperations` returns as the transaction's `ID` the id its
`INSERT INTO endentities_lock ... RETURNING id` drew from the table's `SERIAL` sequence. The
sequence is not transactional: a value once drawn is never drawn again, even when the
transaction that drew it rolls back or loses its connection.

Every handle a client holds is below the sequence's next value (`HandleInv`), and a handle
a client gains is that value (`handle_of_step`), so no two clients ever share a handle
(`handles_unique`). `End`'s `UPDATE endentities_lock ... WHERE id=$1` names the lock row of
its own `BeginEndEntityOperations` and no other transaction's.
-/

namespace Autograph.Database

/-! ## Where a handle comes from -/

/-- A call returns a handle only from the lock row's `INSERT`, and it is the id the
statement returned. -/
theorem Pc.prog_handle {pc : Pc} {m n : Nat} {stmt : Stmt} {k : SqlResult → Next Pc Ret}
    {r : SqlResult} {e : Option Err} (h : pc.prog m = some (stmt, k))
    (hk : k r = .ret (.begin (some n) e)) : stmt = .insertLock ∧ r = .ok (.id n) := by
  cases pc <;> simp only [Pc.prog, Option.some.injEq, Prod.mk.injEq, reduceCtorEq] at h
  all_goals obtain ⟨rfl, rfl⟩ := h
  case lookup => simp at hk
  case begin p =>
    cases p <;> rcases r with e | (_ | n | _) <;> simp [beginEndEntityOperations, Next.map] at hk ⊢
    exact hk.1
  case insert p => cases p <;> cases r <;> simp [insertEE, Next.map] at hk
  case «end» p => cases p <;> cases r <;> simp [Database.«end», Next.map] at hk

/-- The lock row's `INSERT` returns the sequence's next value. -/
theorem exec_insertLock_id {db db' : Server} {i n : Nat} {ok : Bool}
    (h : db.exec i .insertLock ok = some (db', .ok (.id n))) : n = db.lockSeq := by
  cases ht : db.txs i with
  | active st ws =>
    rw [exec_of_active ht (by simp)] at h
    cases ok <;> simp [Server.execOk, Server.execFail] at h
    exact h.2.symm
  | failed => rw [exec_of_failed ht (by simp)] at h; simp [Server.execAborted] at h
  | done => rw [exec_of_done ht (by simp)] at h; cases h
  | none => rw [exec_of_none ht (by simp)] at h; cases h

/-- Every handle a client holds is below the sequence's next value. -/
theorem ClientInv.handle_lt {db : Server} {i n : Nat} {c : Client} (h : ClientInv db i c)
    (hc : c.handle = some n) : n < db.lockSeq := by
  obtain ⟨handle, pc, results⟩ := c
  simp only at hc; subst hc
  cases pc <;> first | exact h.elim | exact h.1 | exact h.2.1

/-- In one step a client keeps its handle, or is the client that took a step and gains the
sequence's next value. -/
theorem handle_of_step {w w' : World} {l : Label} {i n : Nat} (hs : step w l = some w')
    (hi : (w'.clients i).handle = some n) :
    (w.clients i).handle = some n ∨ (∃ ok, l = .run i ok) ∧ n = w.db.lockSeq := by
  cases l with
  | run j ok =>
    obtain ⟨stmt, k, db₁, r, hprog, hexec, rfl⟩ := step_run hs
    by_cases hij : i = j
    · subst hij
      simp only [Function.update_same] at hi
      cases hk : k r with
      | goto p => simp [hk, Client.after] at hi; exact .inl hi
      | ret v =>
        rw [hk] at hi
        simp only [Client.after] at hi
        split at hi
        · rename_i id e
          cases hi
          obtain ⟨rfl, rfl⟩ := Pc.prog_handle hprog hk
          exact .inr ⟨⟨ok, rfl⟩, exec_insertLock_id hexec⟩
        · exact .inl hi
    · simp only [Function.update_noteq hij] at hi; exact .inl hi
  | commitLost j =>
    obtain ⟨k, _, _, hprog, -, rfl⟩ := step_commitLost hs
    by_cases hij : i = j
    · subst hij; simpa [Client.after_commitLost hprog] using hi
    · simp only [Function.update_noteq hij] at hi; exact .inl hi
  | call j k =>
    simp only [step] at hs; split at hs <;> cases hs
    by_cases hij : i = j
    · subst hij; simp only [Function.update_same] at hi; exact .inl hi
    · simp only [Function.update_noteq hij] at hi; exact .inl hi
  | abort j | tick => simp only [step, Option.some.injEq] at hs; subst hs; exact .inl hi

/-! ## The invariant -/

/-- No two clients hold the same handle. -/
def HandlesDistinct (w : World) : Prop :=
  ∀ i j n, (w.clients i).handle = some n → (w.clients j).handle = some n → i = j

theorem handlesDistinct_init : HandlesDistinct World.init := by
  intro i j n hi; cases hi

/-- **Preserved by every step.** -/
theorem handlesDistinct_step {w w' : World} {l : Label} (h : Inv w) (hd : HandlesDistinct w)
    (hs : step w l = some w') : HandlesDistinct w' := by
  intro i j n hi hj
  rcases handle_of_step hs hi with hi' | ⟨⟨ok, rfl⟩, rfl⟩ <;>
    rcases handle_of_step hs hj with hj' | ⟨⟨ok', hl⟩, hn⟩
  · exact hd i j n hi' hj'
  · exact absurd ((h.clients i).handle_lt hi') (by omega)
  · exact absurd ((h.clients j).handle_lt hj') (by omega)
  · cases hl; rfl

theorem handlesDistinct_reachable {w : World} (h : Reachable w) : HandlesDistinct w := by
  induction h with
  | init => exact handlesDistinct_init
  | tail hr hs ih => exact handlesDistinct_step (inv_reachable hr) ih hs

/--
**No two clients ever share a handle.** In every reachable world, a handle one client holds
(`Transaction.ID`, the id of the lock row its `BeginEndEntityOperations` inserted) is held by
no other client, however many transactions before it rolled back or lost their connection.
-/
theorem handles_unique {w : World} {i j n : Nat} (hr : Reachable w) (hij : i ≠ j)
    (hi : (w.clients i).handle = some n) : (w.clients j).handle ≠ some n :=
  fun hj => hij (handlesDistinct_reachable hr i j n hi hj)

/-- Client 0 begins and loses its connection; client 1 then begins. -/
def beginAbortBegin : List Label :=
  [.call 0 .beginEndEntityOperations, .run 0 true, .run 0 true, .run 0 true, .abort 0,
   .call 1 .beginEndEntityOperations, .run 1 true, .run 1 true, .run 1 true]

/-- The aborted transaction's handle is not handed out again. -/
theorem handles_unique_after_abort :
    ∃ w, Reachable w ∧ (w.clients 0).handle = some 1 ∧ (w.clients 1).handle = some 2 ∧
      (w.clients 1).handle ≠ some 1 := by
  obtain ⟨w, hw, h0, h1⟩ : ∃ w, run World.init beginAbortBegin = some w ∧
      (w.clients 0).handle = some 1 ∧ (w.clients 1).handle = some 2 := ⟨_, rfl, rfl, rfl⟩
  have hr := reachable_of_run .init hw
  exact ⟨w, hr, h0, h1, handles_unique hr (by decide) h0⟩

end Autograph.Database
