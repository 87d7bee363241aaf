import Autograph.Proof.Current

/-!
# What a lookup returns

`GetLabelOfLatestEE` runs one query in its caller's transaction. What it returns depends
on three things: whether the server answers the query, the tables the query reads, and
the Go code's handling of the result.

**The tables.** A client that looks up holds its handle, so by the store invariant its
transaction is either broken or open *and holding the table lock*. An open one reads the
committed tables under its own writes, and the committed tables are the serial run of the
lock intervals closed before its own opened (`LockLog`). So a lookup reads exactly what it
would read had the lock holders run one after another in lock order: every row an earlier
holder committed, and of the transactions still open only its own writes.

**The handling.** `sql.ErrNoRows` becomes `ErrNoSuitableEEFound`. Any other error is lost:
`x5uValue, err := nullableX5U.Value()` assigns the named result `err` again, and `Value`
of a `NullString` never fails, so the call returns `("", "", nil)`, also when the
transaction was already rolled back.
-/

namespace Autograph.Database

/-! ## The Go code's handling of the query's result -/

section
variable {s : String} {m : Int}

/-- Any failed query but "no rows" reaches the caller as `("", "", nil)`. -/
theorem getLabelOfLatestEE_error {e : SqlErr} (he : e ≠ .noRows) :
    (getLabelOfLatestEE s m).2 (.error e) = ("", "", none) := by
  cases e <;> simp_all [getLabelOfLatestEE]

/-- The call returns `ErrNoSuitableEEFound` exactly when the query found no row. -/
theorem getLabelOfLatestEE_notFound {r : SqlResult} :
    ((getLabelOfLatestEE s m).2 r).2.2 = some .noSuitableEEFound ↔ r = .error .noRows := by
  rcases r with (_ | _ | _ | _) | (_ | _ | _) <;> simp [getLabelOfLatestEE]

/-- The query finds no row exactly when no row qualifies. -/
theorem queryLatestEE_noRows {t : Tables} :
    queryLatestEE t s m = .error .noRows ↔ ∀ x ∈ t.endentities, Qualifies s m x = false := by
  have hspec := selectLatestEE_spec t.endentities s m
  unfold queryLatestEE
  split <;> rename_i hb <;> simp only [hb] at hspec
  · simp only [reduceCtorEq, false_iff, not_forall]
    exact ⟨_, hspec.1, by simp [hspec.2.1]⟩
  · simpa using hspec

end

/-! ## The lookup statement -/

section
variable {s : String} {m : Int} {db : Server} {i : Nat} {ok : Bool}

/-- A query the server does not answer, because the statement fails or the transaction is
not open, fails with an error other than "no rows". -/
theorem exec_select_error (h : ok = false ∨ ∀ st ws, db.txs i ≠ .active st ws) :
    ∃ db₁ e, e ≠ .noRows ∧ db.exec i (.selectLatestEE s m) ok = some (db₁, .error e) := by
  cases ht : db.txs i with
  | active st ws =>
    rcases h with rfl | h
    · rw [exec_of_active ht (by simp), if_neg Bool.false_ne_true]
      exact ⟨_, .failed, by decide, rfl⟩
    · exact absurd ht (h st ws)
  | failed => rw [exec_of_failed ht (by simp)]; exact ⟨_, .inFailedTx, by decide, rfl⟩
  | done => rw [exec_of_done ht (by simp)]; exact ⟨_, .txDone, by decide, rfl⟩
  | none => rw [exec_of_none ht (by simp)]; exact ⟨_, .txDone, by decide, rfl⟩

/-- A query the server answers reads the committed tables under the session's own writes. -/
theorem exec_select_ok {st : Int} {ws : List Write} (ht : db.txs i = .active st ws) :
    db.exec i (.selectLatestEE s m) true =
      some (db, queryLatestEE (applyAll ws db.committed) s m) := by
  rw [exec_of_active ht (by simp), if_pos rfl]; rfl

/-- `GetLabelOfLatestEE`'s one step: the query, and the call's return. -/
theorem step_lookup {w w' : World} (hpc : (w.clients i).pc = .lookup s m)
    (hs : step w (.run i ok) = some w') :
    ∃ r, w.db.exec i (.selectLatestEE s m) ok = some (w'.db, r) ∧
      (w'.clients i).results = (w.clients i).results ++ [.ofLookup ((getLabelOfLatestEE s m).2 r)] := by
  obtain ⟨stmt, k, db₁, r, hprog, hexec, rfl⟩ := step_run hs
  rw [hpc] at hprog
  simp only [Pc.prog, Option.some.injEq, Prod.mk.injEq] at hprog
  obtain ⟨rfl, rfl⟩ := hprog
  exact ⟨r, hexec, by simp [Client.after]⟩

/-- In a world where the invariant holds, a lookup is either made by the lock holder and
reads the committed tables under the client's own completed `InsertEE` calls, or it fails
with an error other than "no rows". -/
theorem lookup_result {w w' : World} (h : Inv w) (hpc : (w.clients i).pc = .lookup s m)
    (hs : step w (.run i ok) = some w') :
    ∃ r, (w'.clients i).results =
        (w.clients i).results ++ [.ofLookup ((getLabelOfLatestEE s m).2 r)] ∧
      ((w.db.holder = some i ∧ ∃ rs : List EERow, rs.length = insertsDone (w.clients i).results ∧
          r = queryLatestEE (applyAll (blocks rs) w.db.committed) s m) ∨
        ∃ e, e ≠ .noRows ∧ r = .error e) := by
  obtain ⟨r, hexec, hres⟩ := step_lookup hpc hs
  refine ⟨r, hres, ?_⟩
  have hci := h.clients i
  have herr : (ok = false ∨ ∀ st ws, w.db.txs i ≠ .active st ws) →
      ∃ e, e ≠ .noRows ∧ r = .error e := fun hf => by
    obtain ⟨db₁, e, he, hexec'⟩ := exec_select_error (s := s) (m := m) hf
    rw [hexec] at hexec'; cases hexec'; exact ⟨e, he, rfl⟩
  rcases hc : w.clients i with ⟨handle, pc, results⟩
  rw [hc] at hci hpc; simp only at hpc; subst hpc
  cases handle with
  | none => exact hci.elim
  | some n =>
    obtain ⟨-, hb | ⟨st, ws, ht, hh, ⟨rs, tl, hk, -, rfl, htl⟩, -⟩⟩ := hci
    · exact .inr (herr (.inr fun st ws => by rcases hb with ⟨ht, -⟩ | ⟨ht, -⟩ <;> simp [ht]))
    cases ok
    · exact .inr (herr (.inl rfl))
    rw [exec_select_ok ht] at hexec
    obtain ⟨-, rfl⟩ := eq_of_some_pair hexec
    simp only [TailOK] at htl; subst htl
    have hv : (applyAll (.insertLock (lockRow n) :: blocks rs) w.db.committed).endentities =
        (applyAll (blocks rs) w.db.committed).endentities :=
      applyAll_endentities_congr (blocks rs) (t := (Write.insertLock (lockRow n)).apply _) rfl
    exact .inl ⟨hh, rs, hk, by simp only [queryLatestEE, List.append_nil, hv]⟩

end

/-- Client `c` begins, the steps `mid` happen, and client `c` looks up signer `"s"` with
`youngerThan = 10` at time `5`. -/
def beginAndLookup (c : Nat) (mid : List Label) : List Label :=
  [.call c .beginEndEntityOperations, .run c true, .run c true, .run c true] ++ mid ++
    [.call c (.getLabelOfLatestEE "s" 10 5)]

/-! ## One open transaction at a time -/

/-- A client that holds a handle and whose transaction is open holds the table lock. -/
theorem ClientInv.holder_of_active {db : Server} {i : Nat} {c : Client} {st : Int}
    {ws : List Write} (h : ClientInv db i c) (hc : c.handle.isSome)
    (ht : db.txs i = .active st ws) : db.holder = some i := by
  obtain ⟨handle, pc, results⟩ := c
  obtain ⟨n, rfl⟩ := Option.isSome_iff_exists.mp hc
  have hh : HandleInv db i n (insertsDone results) pc := by
    cases pc <;> first | exact h.elim | exact h | exact h.2
  rcases hh.2 with (⟨ht', -⟩ | ⟨ht', -⟩) | ⟨-, -, -, hho, -⟩
  · simp [ht] at ht'
  · simp [ht] at ht'
  · exact hho

/--
**One open transaction at a time.** In every reachable world, two clients whose
`BeginEndEntityOperations` returned a handle and whose transactions are both still open are
the same client.
-/
theorem open_transactions_exclusive {w : World} (hr : Reachable w) {i j : Nat} {st st' : Int}
    {ws ws' : List Write} (hi : (w.clients i).handle.isSome) (hj : (w.clients j).handle.isSome)
    (hti : w.db.txs i = .active st ws) (htj : w.db.txs j = .active st' ws') : i = j := by
  have h := inv_reachable hr
  have hhi := (h.clients i).holder_of_active hi hti
  rw [(h.clients j).holder_of_active hj htj, Option.some.injEq] at hhi
  exact hhi.symm

/-- Once client `0` has begun, client `1` opens a transaction but gets no handle: its
`LOCK TABLE` waits, and client `0` is the only one with an open transaction behind a
handle. -/
theorem open_transactions_exclusive_after_begin :
    ∃ w, Reachable w ∧ (w.clients 0).handle = some 1 ∧
      (∃ st, w.db.txs 1 = .active st []) ∧ (w.clients 1).handle = none ∧
      step w (.run 1 true) = none ∧
      ∀ j st ws, (w.clients j).handle.isSome → w.db.txs j = .active st ws → j = 0 := by
  obtain ⟨w, hw, hh, ht, ht₁, hh₁, hwait⟩ : ∃ w,
      run World.init ((beginAndLookup 0 []).dropLast ++
        [Label.call 1 .beginEndEntityOperations, Label.run 1 true]) = some w ∧
      (w.clients 0).handle = some 1 ∧ w.db.txs 0 = .active 0 [.insertLock (lockRow 1)] ∧
      w.db.txs 1 = .active 0 [] ∧ (w.clients 1).handle = none ∧ step w (.run 1 true) = none :=
    ⟨_, rfl, rfl, rfl, rfl, rfl, rfl⟩
  have hr := reachable_of_run .init hw
  exact ⟨w, hr, hh, ⟨0, ht₁⟩, hh₁, hwait, fun j st ws hj htj =>
    open_transactions_exclusive hr hj (by simp [hh]) htj ht⟩

/-! ## Lookups see the serial run -/

/--
**Lookups see the serial run, in lock order.**

In every reachable world the lock log is a sequence of disjoint intervals: the closed ones,
`done`, and the current holder's. A lookup either fails with an error other than "no
rows", or it is made by the lock holder and returns the query's result on `serial done`
(every earlier holder's commits, in lock order) under the client's own completed
`InsertEE` calls of this transaction, and nothing else. So a client that has not inserted in
this transaction gets `ErrNoSuitableEEFound` only if no row an earlier holder committed is
current, for `s`, and younger than the bound.
-/
theorem lookup_sees_serial_run {w w' : World} {i : Nat} {ok : Bool} {s : String} {m : Int}
    (hr : Reachable w) (hpc : (w.clients i).pc = .lookup s m)
    (hs : step w (.run i ok) = some w') :
    ∃ done : List Interval, w.db.events = intervalEvents done ++ openEvents w.db.holder ∧
      ∃ r, (w'.clients i).results =
          (w.clients i).results ++ [.ofLookup ((getLabelOfLatestEE s m).2 r)] ∧
        ((w.db.holder = some i ∧ ∃ rs : List EERow, rs.length = insertsDone (w.clients i).results ∧
            r = queryLatestEE (applyAll (blocks rs) (serial done)) s m) ∨
          ∃ e, e ≠ .noRows ∧ r = .error e) ∧
        (insertsDone (w.clients i).results = 0 →
          ((getLabelOfLatestEE s m).2 r).2.2 = some .noSuitableEEFound →
          ∀ x ∈ (serial done).endentities, Qualifies s m x = false) := by
  have h := inv_reachable hr
  obtain ⟨done, hev, hser, -⟩ := h.log
  obtain ⟨r, hres, hans⟩ := lookup_result h hpc hs
  rw [hser] at hans
  refine ⟨done, hev, r, hres, hans, fun h0 hnf => ?_⟩
  rcases hans with ⟨-, rs, hk, rfl⟩ | ⟨e, he, rfl⟩
  · rw [h0, List.length_eq_zero] at hk; subst hk
    exact queryLatestEE_noRows.mp (getLabelOfLatestEE_notFound.mp hnf)
  · cases getLabelOfLatestEE_notFound.mp hnf; exact absurd rfl he

/-- After client `0` committed two keys, client `1`'s lookup is made under the lock and finds
the current one. -/
theorem lookup_sees_serial_run_after_commit :
    ∃ w w', Reachable w ∧ step w (.run 1 true) = some w' ∧ w.db.holder = some 1 ∧
      (w'.clients 1).results = [.begin (some 2) none, .lookup "L2" "u" none] := by
  obtain ⟨w, w', hw, hs, hpc, hres, hres'⟩ : ∃ w w',
      run World.init (insertTwice "L1" "L2" ++ beginAndLookup 1 []) = some w ∧
      step w (.run 1 true) = some w' ∧ (w.clients 1).pc = .lookup "s" (-5) ∧
      (w.clients 1).results = [.begin (some 2) none] ∧
      (w'.clients 1).results = [.begin (some 2) none, .lookup "L2" "u" none] :=
    ⟨_, _, rfl, rfl, rfl, rfl, rfl⟩
  have hr := reachable_of_run .init hw
  obtain ⟨done, -, r, hr', hans, -⟩ := lookup_sees_serial_run hr hpc hs
  refine ⟨w, w', hr, hs, ?_, hres'⟩
  rcases hans with ⟨hh, -⟩ | ⟨e, he, rfl⟩
  · exact hh
  · rw [hres', hres, getLabelOfLatestEE_error he] at hr'; exact absurd hr' (by decide)

/-! ## The two outcomes of the query -/

section
variable {w w' : World} {i : Nat} {s : String} {m : Int}

/-- When the server answers the query of an open transaction, the call returns either a nil
error with the label and the `x5u` (`""` for `NULL`) of a newest row of the transaction's view
that is current, for `s`, and younger than the bound, or `ErrNoSuitableEEFound` and no row of
the view qualifies. -/
theorem lookup_answered {st : Int} {ws : List Write} (hpc : (w.clients i).pc = .lookup s m)
    (ht : w.db.txs i = .active st ws) (hs : step w (.run i true) = some w') :
    w'.db = w.db ∧ ∃ label x5u err,
      (w'.clients i).results = (w.clients i).results ++ [.lookup label x5u err] ∧
      ((err = none ∧ ∃ b ∈ (applyAll ws w.db.committed).endentities, Qualifies s m b ∧
          (∀ x ∈ (applyAll ws w.db.committed).endentities, Qualifies s m x →
            x.createdAt ≤ b.createdAt) ∧ label = b.label ∧ x5u = b.x5u.getD "") ∨
        (err = some .noSuitableEEFound ∧
          label = "" ∧ x5u = "" ∧
          ∀ x ∈ (applyAll ws w.db.committed).endentities, Qualifies s m x = false)) := by
  obtain ⟨r, hexec, hres⟩ := step_lookup hpc hs
  rw [exec_select_ok ht] at hexec
  obtain ⟨hdb, rfl⟩ := eq_of_some_pair hexec
  refine ⟨hdb, _, _, _, by simpa using hres, ?_⟩
  have hspec := selectLatestEE_spec (applyAll ws w.db.committed).endentities s m
  unfold queryLatestEE
  split <;> rename_i hb <;> simp only [hb] at hspec
  · exact .inl ⟨rfl, _, hspec.1, hspec.2.1, hspec.2.2, rfl, rfl⟩
  · exact .inr ⟨rfl, rfl, rfl, hspec⟩

/--
**A failed query returns a nil error.** When the server does not answer the lookup, because
the statement fails or the transaction was already rolled back or aborted, the call still
returns `("", "", nil)`, as if a row with an empty label had been found.
-/
theorem lookup_failed_query_returns_nil {ok : Bool} (hpc : (w.clients i).pc = .lookup s m)
    (hs : step w (.run i ok) = some w')
    (hfail : ok = false ∨ ∀ st ws, w.db.txs i ≠ .active st ws) :
    (w'.clients i).results = (w.clients i).results ++ [.lookup "" "" none] := by
  obtain ⟨r, hexec, hres⟩ := step_lookup hpc hs
  obtain ⟨db₁, e, he, hexec'⟩ := exec_select_error (s := s) (m := m) hfail
  rw [hexec] at hexec'; cases hexec'
  rw [hres, getLabelOfLatestEE_error he]; rfl

theorem lookup_after_abort_returns_nil :
    ∃ w w', Reachable w ∧ step w (.run 0 true) = some w' ∧ w.db.txs 0 = .done ∧
      (w'.clients 0).results = [.begin (some 1) none, .lookup "" "" none] := by
  obtain ⟨w, w', hw, hs, hpc, ht, hres⟩ : ∃ w w',
      run World.init (beginAndLookup 0 [.abort 0]) = some w ∧
      step w (.run 0 true) = some w' ∧ (w.clients 0).pc = .lookup "s" (-5) ∧ w.db.txs 0 = .done ∧
      (w.clients 0).results = [.begin (some 1) none] :=
    ⟨_, _, rfl, rfl, rfl, rfl, rfl⟩
  refine ⟨w, w', reachable_of_run .init hw, hs, ht, ?_⟩
  rw [lookup_failed_query_returns_nil hpc hs (.inr fun st ws => by simp [ht]), hres]; rfl

end

end Autograph.Database
