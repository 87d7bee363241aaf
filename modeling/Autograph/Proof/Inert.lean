import Autograph.Proof.History

/-!
# A finished transaction is inert

Every error path of `InsertEE` and `End` rolls the transaction back, and `End` otherwise
commits it. The package asks its callers not to call `End` after an error, but nothing
stops them, or stops them from calling `GetLabelOfLatestEE` and `InsertEE` on the handle
again. `database/sql` answers every statement of a finished `*sql.Tx` with `ErrTxDone` and
sends nothing to the server.

So once a client that holds a handle has no open or aborted transaction, nothing it does
can be seen by anyone else. Every run reaches the same database, and leaves every other
client where it is, as the same run with that client's steps left out
(`ended_transaction_inert`). Its calls still return, but only to itself.

The proof takes one step at a time: the client's own steps change nothing but itself
(`step_ended_self`), and a step of anyone else runs alike from two worlds that agree on
everything but that client (`step_agree`).
-/

namespace Autograph.Database

/-- The client a label acts for; the clock's `tick` acts for none. -/
def Label.client : Label → Option Nat
  | .call i _ | .run i _ | .abort i | .commitLost i => some i
  | .tick => none

/-- Client `i` holds a handle, and its session has no transaction, open or aborted. -/
def Ended (w : World) (i : Nat) : Prop :=
  (w.clients i).handle.isSome ∧ (w.db.txs i = .none ∨ w.db.txs i = .done)

/-- `v` and `w` have the same database and agree on every client but `i`. -/
def AgreeExcept (i : Nat) (v w : World) : Prop :=
  v.db = w.db ∧ ∀ j, j ≠ i → v.clients j = w.clients j

theorem AgreeExcept.symm {i : Nat} {v w : World} (h : AgreeExcept i v w) : AgreeExcept i w v :=
  ⟨h.1.symm, fun j hj => (h.2 j hj).symm⟩

theorem AgreeExcept.trans {i : Nat} {u v w : World} (h : AgreeExcept i u v)
    (h' : AgreeExcept i v w) : AgreeExcept i u w :=
  ⟨h.1.trans h'.1, fun j hj => (h.2 j hj).trans (h'.2 j hj)⟩

/-! ## The client's own steps -/

/-- A client that holds a handle is past `BeginEndEntityOperations`. -/
theorem ClientInv.not_begin {db : Server} {i : Nat} {c : Client} (h : ClientInv db i c)
    (hc : c.handle.isSome) (p : BeginPc) : c.pc ≠ .begin p := by
  obtain ⟨handle, pc, results⟩ := c
  obtain ⟨n, rfl⟩ := Option.isSome_iff_exists.mp hc
  rintro rfl
  exact h

/-- Only `BeginEndEntityOperations` issues `db.Begin()`. -/
theorem Pc.prog_ne_begin {pc : Pc} {n : Nat} {stmt : Stmt} {k : SqlResult → Next Pc Ret}
    (h : pc.prog n = some (stmt, k)) (hpc : ∀ p, pc ≠ .begin p) : stmt ≠ .begin := by
  rintro rfl
  cases pc with
  | idle => cases h
  | begin p => exact hpc p rfl
  | lookup s m => simp [Pc.prog, getLabelOfLatestEE] at h
  | insert p => cases p <;> simp [Pc.prog, insertEE] at h
  | «end» p => cases p <;> simp [Pc.prog, Database.«end»] at h

/-- A client keeps its handle. -/
theorem Client.after_handle_isSome {c : Client} (nx : Next Pc Ret) (h : c.handle.isSome) :
    (c.after nx).handle.isSome := by
  cases nx with
  | goto p => exact h
  | ret v => simp only [Client.after]; split <;> simp [h]

/-- Dropping a connection with no transaction changes nothing. -/
theorem Server.abort_of_ended {db : Server} {i : Nat}
    (ht : db.txs i = .none ∨ db.txs i = .done) : db.abort i = db := by
  unfold Server.abort
  rcases ht with ht | ht <;> simp [ht]

/-- A step of a client whose transaction has ended changes that client and nothing else,
and its transaction stays ended. -/
theorem step_ended_self {w w' : World} {l : Label} {i : Nat} (hinv : Inv w) (he : Ended w i)
    (hs : step w l = some w') (hl : l.client = some i) : AgreeExcept i w' w ∧ Ended w' i := by
  obtain ⟨hh, ht⟩ := he
  cases l with
  | call j k =>
    obtain rfl : j = i := Option.some.inj hl
    simp only [step] at hs; split at hs <;> cases hs
    refine ⟨⟨rfl, fun m hm => by simp [Function.update_noteq hm]⟩, ?_, ht⟩
    simpa using hh
  | run j ok =>
    obtain rfl : j = i := Option.some.inj hl
    obtain ⟨stmt, k, db₁, r, hprog, hexec, rfl⟩ := step_run hs
    have hb := Pc.prog_ne_begin hprog ((hinv.clients j).not_begin hh)
    obtain rfl : db₁ = w.db := by
      rcases ht with ht | ht
      · rw [exec_of_none ht hb] at hexec; cases hexec; rfl
      · rw [exec_of_done ht hb] at hexec; cases hexec; rfl
    refine ⟨⟨rfl, fun m hm => by simp [Function.update_noteq hm]⟩, ?_, ht⟩
    simpa using Client.after_handle_isSome (k r) hh
  | commitLost j =>
    -- `database/sql` answers the `COMMIT` of an ended transaction with `ErrTxDone`
    obtain rfl : j = i := Option.some.inj hl
    obtain ⟨-, _, _, -, hexec, -⟩ := step_commitLost hs
    rcases ht with ht | ht
    · rw [exec_of_none ht (by simp)] at hexec; cases hexec
    · rw [exec_of_done ht (by simp)] at hexec; cases hexec
  | abort j =>
    obtain rfl : j = i := Option.some.inj hl
    simp only [step, Option.some.injEq] at hs; subst hs
    simp only [Server.abort_of_ended ht]
    exact ⟨⟨rfl, fun _ _ => rfl⟩, hh, ht⟩
  | tick => cases hl

/-! ## Everyone else's steps -/

section
variable {v w w' : World} {l : Label} {i : Nat}

/-- Giving client `j` the same state in two worlds that agree keeps them agreeing. -/
theorem AgreeExcept.update_clients {j : Nat} (h : AgreeExcept i v w) (c : Client) :
    ∀ m, m ≠ i → Function.update v.clients j c m = Function.update w.clients j c m := by
  intro m hm
  by_cases hmj : m = j
  · subst hmj; simp
  · simp [Function.update_noteq hmj, h.2 m hm]

/-- Another client's step, or the clock's, runs alike from a world that agrees with `w` on
everything but client `i`. -/
theorem step_agree (hvw : AgreeExcept i v w) (hs : step w l = some w')
    (hl : l.client ≠ some i) : ∃ v', step v l = some v' ∧ AgreeExcept i v' w' := by
  cases l with
  | call j k =>
    have hj : j ≠ i := fun h => hl (congrArg some h)
    simp only [step, hvw.2 j hj] at hs ⊢
    split at hs <;> cases hs
    exact ⟨_, if_pos ‹_›, hvw.1, hvw.update_clients _⟩
  | run j ok =>
    have hj : j ≠ i := fun h => hl (congrArg some h)
    obtain ⟨stmt, k, db₁, r, hprog, hexec, rfl⟩ := step_run hs
    exact ⟨⟨db₁, Function.update v.clients j ((w.clients j).after (k r))⟩,
      by simp only [step, hvw.2 j hj, hvw.1, hprog, hexec], rfl, hvw.update_clients _⟩
  | commitLost j =>
    have hj : j ≠ i := fun h => hl (congrArg some h)
    obtain ⟨k, db₁, a, hprog, hexec, rfl⟩ := step_commitLost hs
    exact ⟨⟨db₁, Function.update v.clients j ((w.clients j).after (k (.error .failed)))⟩,
      by simp only [step, hvw.2 j hj, hvw.1, hprog, hexec], rfl, hvw.update_clients _⟩
  | abort j | tick =>
    simp only [step, Option.some.injEq] at hs ⊢; subst hs
    exact ⟨_, rfl, by rw [hvw.1], hvw.2⟩

/-- Dropping another session's connection leaves session `i`'s transaction alone. -/
theorem Server.abort_txs_ne {db : Server} {i j : Nat} (hj : i ≠ j) :
    (db.abort j).txs i = db.txs i := by
  unfold Server.abort; split <;> simp [Function.update_noteq hj]

/-- Another client's step, or the clock's, keeps client `i`'s transaction ended. -/
theorem step_other_ended (he : Ended w i) (hs : step w l = some w') (hl : l.client ≠ some i) :
    Ended w' i := by
  obtain ⟨hh, ht⟩ := he
  cases l with
  | call j k =>
    have hj : i ≠ j := fun h => hl (congrArg some h.symm)
    simp only [step] at hs; split at hs <;> cases hs
    exact ⟨by simpa [Function.update_noteq hj] using hh, ht⟩
  | run j ok =>
    have hj : i ≠ j := fun h => hl (congrArg some h.symm)
    obtain ⟨stmt, k, db₁, r, hprog, hexec, rfl⟩ := step_run hs
    exact ⟨by simpa [Function.update_noteq hj] using hh, by rwa [exec_txs_ne hexec hj]⟩
  | commitLost j =>
    have hj : i ≠ j := fun h => hl (congrArg some h.symm)
    obtain ⟨k, db₁, a, hprog, hexec, rfl⟩ := step_commitLost hs
    exact ⟨by simpa [Function.update_noteq hj] using hh, by rwa [exec_txs_ne hexec hj]⟩
  | abort j =>
    have hj : i ≠ j := fun h => hl (congrArg some h.symm)
    simp only [step, Option.some.injEq] at hs; subst hs
    exact ⟨hh, by simpa [Server.abort_txs_ne hj] using ht⟩
  | tick => simp only [step, Option.some.injEq] at hs; subst hs; exact ⟨hh, ht⟩

end

/-! ## Runs -/

/-- From any world that agrees with `w` on everything but client `i`, the run without `i`'s
steps reaches a world that agrees with where the whole run reaches. -/
theorem run_agree {i : Nat} :
    ∀ {ls : List Label} {v w w' : World}, Reachable w → Ended w i → AgreeExcept i v w →
      run w ls = some w' →
      ∃ v', run v (ls.filter fun l => l.client ≠ some i) = some v' ∧ AgreeExcept i v' w'
  | [], v, w, w', _, _, hvw, h => by cases h; exact ⟨v, rfl, hvw⟩
  | l :: ls, v, w, w', hr, he, hvw, h => by
    simp only [run, Option.bind_eq_some] at h
    obtain ⟨w₁, h₁, h₂⟩ := h
    by_cases hl : l.client = some i
    · -- the ended client's step: skipped, and invisible
      obtain ⟨hw₁, he₁⟩ := step_ended_self (inv_reachable hr) he h₁ hl
      rw [List.filter_cons_of_neg (by simpa using hl)]
      exact run_agree (.tail hr h₁) he₁ (hvw.trans hw₁.symm) h₂
    · obtain ⟨v₁, hv₁, hvw₁⟩ := step_agree hvw h₁ hl
      obtain ⟨v', hv', hvw'⟩ :=
        run_agree (.tail hr h₁) (step_other_ended he h₁ hl) hvw₁ h₂
      rw [List.filter_cons_of_pos (by simpa using hl), run, hv₁, Option.some_bind]
      exact ⟨v', hv', hvw'⟩

/--
**A finished transaction is inert.** From every reachable world in which client `i` holds a
handle and its session has no transaction, open or aborted (for instance after `InsertEE`
or `End` returned), every run reaches the same database, and leaves every other client where
it is, as the same run with client `i`'s steps left out. Calling `End`, `InsertEE` or
`GetLabelOfLatestEE` on a finished handle commits nothing, takes no lock, and changes
nothing any other client can see.
-/
theorem ended_transaction_inert {w w' : World} {i : Nat} {ls : List Label} (hr : Reachable w)
    (he : Ended w i) (hrun : run w ls = some w') :
    ∃ v, run w (ls.filter fun l => l.client ≠ some i) = some v ∧ v.db = w'.db ∧
      ∀ j, j ≠ i → v.clients j = w'.clients j :=
  run_agree hr he ⟨rfl, fun _ _ => rfl⟩ hrun

/-- After its `InsertEE` failed, client 0 calls `End` anyway, while client 1 begins. -/
def endAfterError : List Label :=
  [.call 0 .«end», .call 1 .beginEndEntityOperations, .run 0 true, .run 1 true, .run 0 true,
   .run 1 true, .run 1 true]

/-- Client 0's `End` returns an error, and client 1 fares as if client 0 had not called it. -/
theorem ended_transaction_inert_end_after_error :
    ∃ w w', Reachable w ∧ Ended w 0 ∧ run w endAfterError = some w' ∧
      (w'.clients 0).results.getLast? = some (.«end» (some
        (.wrap "failed to update is_current status of keys in database" .txDone))) ∧
      ∃ v, run w (endAfterError.filter fun l => l.client ≠ some 0) = some v ∧ v.db = w'.db ∧
        ∀ j, j ≠ 0 → v.clients j = w'.clients j := by
  obtain ⟨w, w', hw, he, hrun, hres⟩ : ∃ w w',
      run World.init (beginInsertFails ++ [Label.run 0 true]) = some w ∧ Ended w 0 ∧
      run w endAfterError = some w' ∧
      (w'.clients 0).results.getLast? = some (.«end» (some
        (.wrap "failed to update is_current status of keys in database" .txDone))) :=
    ⟨_, _, rfl, ⟨rfl, .inr rfl⟩, rfl, rfl⟩
  have hr := reachable_of_run .init hw
  exact ⟨w, w', hr, he, hrun, hres, ended_transaction_inert hr he hrun⟩

end Autograph.Database
