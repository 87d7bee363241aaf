import Autograph.Proof.Handles

/-!
# The committed key records: kept, and numbered in order

`endentities` is the signers' key history. The package never deletes a row of it and never
rewrites one, except that `InsertEE`'s
`UPDATE endentities SET is_current=FALSE WHERE signer_id=$1 and label!=$2` retires the other
keys of its signer. So along every run every committed row stays at its position with all
its columns, `is_current` can only go from true to false, and new rows come after the old
ones (`committed_records_kept`). This needs no invariant: every write keeps the rows before
it, so every commit does.

Row ids come from the table's `SERIAL` sequence, and only a transaction that holds the
table lock inserts rows. So the committed rows' ids increase in table order, and a row a
later commit adds has a larger id than every row already there (`committed_ids_increasing`).
This one rests on the lock: of two open transactions at most one has written anything
(`ClientInv.writes_or_holder`). Without it, a transaction that drew a smaller id could
commit after one that drew a larger id.
-/

namespace Autograph.Database

/-! ## Kept rows -/

/-- `r'` is the row `r`, or `r` retired: every column but `is_current` is the same, and
`is_current` can only have been cleared. -/
def EERow.Kept (r r' : EERow) : Prop := r' = r ∨ r' = { r with isCurrent := false }

theorem EERow.Kept.refl (r : EERow) : r.Kept r := .inl rfl

theorem EERow.Kept.trans {r r' r'' : EERow} (h : r.Kept r') (h' : r'.Kept r'') : r.Kept r'' := by
  rcases h with rfl | rfl <;> rcases h' with rfl | rfl <;> simp [EERow.Kept]

theorem demoteRow_kept (s l : String) (r : EERow) : r.Kept (demoteRow s l r) := by
  unfold demoteRow; split <;> simp [EERow.Kept]

/-- Every row of `t`'s `endentities` is still in `t'`'s, at the same position, kept. Rows
`t'` has beyond them come after. -/
def Tables.Keeps (t t' : Tables) : Prop :=
  ∀ (n : Nat) (r : EERow), t.endentities[n]? = some r → ∃ r', t'.endentities[n]? = some r' ∧ r.Kept r'

theorem Tables.Keeps.refl (t : Tables) : t.Keeps t := fun _ r h => ⟨r, h, .refl r⟩

theorem Tables.Keeps.trans {t t' t'' : Tables} (h : t.Keeps t') (h' : t'.Keeps t'') :
    t.Keeps t'' := fun n r hr => by
  obtain ⟨r', hr', hk⟩ := h n r hr
  obtain ⟨r'', hr'', hk'⟩ := h' n r' hr'
  exact ⟨r'', hr'', hk.trans hk'⟩

/-- Every write keeps the rows before it: an `INSERT` appends, an `UPDATE` retires. -/
theorem Write.apply_keeps (w : Write) (t : Tables) : t.Keeps (w.apply t) := by
  intro n r hr
  cases w with
  | insertEE x =>
    refine ⟨r, ?_, .refl r⟩
    simpa [Write.apply, List.getElem?_append_left (List.getElem?_eq_some_iff.mp hr).1] using hr
  | demote s l => exact ⟨demoteRow s l r, by simp [Write.apply, hr], demoteRow_kept s l r⟩
  | insertLock _ | freeLock _ _ => exact ⟨r, hr, .refl r⟩

theorem applyAll_keeps : ∀ (ws : List Write) (t : Tables), t.Keeps (applyAll ws t)
  | [], t => .refl t
  | w :: ws, t => (w.apply_keeps t).trans (applyAll_keeps ws _)

/-- A statement leaves the committed rows as they were, or commits writes on top of them. -/
theorem exec_keeps {db db' : Server} {i : Nat} {stmt : Stmt} {ok : Bool} {r : SqlResult}
    (h : db.exec i stmt ok = some (db', r)) : db.committed.Keeps db'.committed := by
  cases exec_shared h with
  | quiet hc _ _ | acquire _ hc _ _ | rollback _ hc _ => rw [hc]; exact .refl _
  | commit _ _ hc _ => rw [hc]; exact applyAll_keeps _ _

theorem step_keeps {w w' : World} {l : Label} (hs : step w l = some w') :
    w.db.committed.Keeps w'.db.committed := by
  cases l with
  | run i ok => obtain ⟨_, _, _, _, -, hexec, rfl⟩ := step_run hs; exact exec_keeps hexec
  | commitLost i => obtain ⟨_, _, _, -, hexec, rfl⟩ := step_commitLost hs; exact exec_keeps hexec
  | call i k => simp only [step] at hs; split at hs <;> cases hs; exact .refl _
  | abort i =>
    simp only [step, Option.some.injEq] at hs; subst hs
    simp only [Server.abort_committed]; exact .refl _
  | tick => simp only [step, Option.some.injEq] at hs; subst hs; exact .refl _

/--
**Committed key records are never deleted or rewritten.** Along every run, every committed
`endentities` row stays at its position with the same id, x5u, label, signer, HSM handle
and creation time; its `is_current` can only have gone from true to false; and the rows
the run commits come after it.
-/
theorem committed_records_kept {w w' : World} {ls : List Label} (h : run w ls = some w') :
    w.db.committed.Keeps w'.db.committed := by
  induction ls generalizing w with
  | nil => cases h; exact .refl _
  | cons l ls ih =>
    simp only [run, Option.bind_eq_some] at h
    obtain ⟨w₁, h₁, h₂⟩ := h
    exact (step_keeps h₁).trans (ih h₂)

/-- Client 1 begins, inserts a third key for signer `"s"`, and ends. -/
def insertThird : List Label :=
  [.call 1 .beginEndEntityOperations, .run 1 true, .run 1 true, .run 1 true,
   .call 1 (.insertEE "u" "L3" "s" 9), .run 1 true, .run 1 true,
   .call 1 .«end», .run 1 true, .run 1 true]

/-- The third key retires the second, which stays in place. -/
theorem committed_records_kept_third_key :
    ∃ w w', run World.init (insertTwice "L1" "L2") = some w ∧ run w insertThird = some w' ∧
      w.db.committed.Keeps w'.db.committed ∧
      w'.db.committed.endentities.map EERow.isCurrent = [false, false, true] := by
  obtain ⟨w, w', hw, hw', hcur⟩ : ∃ w w', run World.init (insertTwice "L1" "L2") = some w ∧
      run w insertThird = some w' ∧
      w'.db.committed.endentities.map EERow.isCurrent = [false, false, true] :=
    ⟨_, _, rfl, rfl, rfl⟩
  exact ⟨w, w', hw, hw', committed_records_kept hw', hcur⟩

/-! ## Ids in insertion order -/

/-- The ids of the rows a list of writes inserts into `endentities`. -/
def insertedIds (ws : List Write) : List Nat := (insertedRows ws).map EERow.id

/-- The ids of a table's `endentities` rows, in table order. -/
def Tables.eeIds (t : Tables) : List Nat := t.endentities.map EERow.id

@[simp] theorem insertedIds_nil : insertedIds [] = [] := rfl

@[simp] theorem demoteRow_id (s l : String) (r : EERow) : (demoteRow s l r).id = r.id := by
  unfold demoteRow; split <;> rfl

@[simp] theorem Server.setTx_eeSeq (db : Server) (i : Nat) (t : TxStatus) :
    (db.setTx i t).eeSeq = db.eeSeq := rfl

@[simp] theorem Server.finish_eeSeq {db : Server} {i : Nat} {o : Option (List Write)} :
    (db.finish i o).eeSeq = db.eeSeq := by
  unfold Server.finish; split <;> rfl

/-- Replaying writes adds the ids of the rows they insert, after the ids already there. -/
theorem applyAll_eeIds (ws : List Write) (t : Tables) :
    (applyAll ws t).eeIds = t.eeIds ++ insertedIds ws := by
  induction ws generalizing t with
  | nil => simp
  | cons w ws ih =>
    rw [applyAll_cons, ih]
    cases w <;> simp [Write.apply, Tables.eeIds, insertedIds, insertedRows, Function.comp_def]

/-- Ids in increasing order, all drawn before the sequence's next value `seq`. -/
def Numbered (ids : List Nat) (seq : Nat) : Prop := ids.Pairwise (· < ·) ∧ ∀ x ∈ ids, x < seq

section
variable {ids : List Nat} {seq seq' : Nat}

theorem Numbered.mono (h : Numbered ids seq) (hs : seq ≤ seq') : Numbered ids seq' :=
  ⟨h.1, fun x hx => Nat.lt_of_lt_of_le (h.2 x hx) hs⟩

/-- Drawing the sequence's next value keeps the ids in order. -/
theorem Numbered.append_seq (h : Numbered ids seq) (hs : seq < seq') :
    Numbered (ids ++ [seq]) seq' := by
  refine ⟨List.pairwise_append.mpr ⟨h.1, by simp, fun x hx y hy => ?_⟩, fun x hx => ?_⟩
  · rw [List.mem_singleton.mp hy]; exact h.2 x hx
  · rcases List.mem_append.mp hx with hx | hx
    · exact Nat.lt_trans (h.2 x hx) hs
    · rw [List.mem_singleton.mp hx]; exact hs

end

/-- The committed rows are numbered in order, and so is every open transaction's view of
them. -/
structure IdsInv (db : Server) : Prop where
  committed : Numbered db.committed.eeIds db.eeSeq
  active : ∀ {j st ws}, db.txs j = .active st ws →
    Numbered (db.committed.eeIds ++ insertedIds ws) db.eeSeq

theorem idsInv_init : IdsInv Server.init where
  committed := by simp [Numbered, Server.init, Tables.empty, Tables.eeIds]
  active h := by cases h

/-! ## What a statement does to the ids -/

section
variable {db db' : Server} {i : Nat} {stmt : Stmt} {ok : Bool} {r : SqlResult}

/-- Only the lock holder's open transaction has written anything. -/
theorem ClientInv.writes_or_holder {c : Client} {st : Int} {ws : List Write}
    (h : ClientInv db i c) (ht : db.txs i = .active st ws) : ws = [] ∨ db.holder = some i := by
  obtain ⟨handle, pc, results⟩ := c
  cases handle with
  | some n => exact .inr (h.holder_of_active rfl ht)
  | none =>
    cases pc with
    | begin p =>
      obtain ⟨-, h⟩ := h
      cases p with
      | begin => simp [h.1] at ht
      | lock =>
        rcases h.2 with h | ⟨st', h⟩ <;> rw [h] at ht
        · cases ht
        · cases ht; exact .inl rfl
      | lockFailed _ => rcases h.2 with h | h <;> simp [h] at ht
      | insert =>
        rcases h with ⟨h, -⟩ | ⟨st', -, hh⟩
        · simp [h] at ht
        · exact .inr hh
      | insertFailed _ => rcases h with ⟨h, -⟩ | ⟨h, -⟩ <;> simp [h] at ht
    | idle => rcases h.2.1 with h | h <;> simp [h] at ht
    | _ => exact h.elim

/-- A statement that succeeds in an open transaction: the sequence only grows, and if the
transaction is still open, nothing was committed and it inserted at most one row, whose id
is the sequence's next value. -/
theorem execOk_ids {st : Int} {ws : List Write} (ha : db.txs i = .active st ws)
    (h : db.execOk i st ws stmt = some (db', r)) :
    db.eeSeq ≤ db'.eeSeq ∧ ∀ {st' ws'}, db'.txs i = .active st' ws' →
      db'.committed = db.committed ∧ (insertedIds ws' = insertedIds ws ∨
        insertedIds ws' = insertedIds ws ++ [db.eeSeq] ∧ db.eeSeq < db'.eeSeq) := by
  cases stmt <;> simp only [Server.execOk] at h <;> (try split at h) <;> (try split at h) <;>
    cases h <;> refine ⟨by simp, fun ht' => ?_⟩ <;> simp [ha] at ht' <;>
    obtain ⟨rfl, rfl⟩ := ht' <;> simp [insertedIds, insertedRows]

/-- What a statement does to what `IdsInv` reads: the sequence only grows, and if the
session's transaction is open afterwards, it was just begun, or it was open before, nothing
was committed, and it inserted at most one row, whose id is the sequence's next value. -/
theorem exec_ids (h : db.exec i stmt ok = some (db', r)) :
    db.eeSeq ≤ db'.eeSeq ∧ ∀ {st' ws'}, db'.txs i = .active st' ws' →
      ws' = [] ∨ ∃ st ws, db.txs i = .active st ws ∧ db'.committed = db.committed ∧
        (insertedIds ws' = insertedIds ws ∨
          insertedIds ws' = insertedIds ws ++ [db.eeSeq] ∧ db.eeSeq < db'.eeSeq) := by
  by_cases hb : stmt = .begin
  · subst hb; rw [exec_begin] at h
    split at h <;> cases h
    · exact ⟨Nat.le_refl _, fun ht' => .inl (by simp at ht'; exact ht'.2)⟩
    · exact ⟨Nat.le_refl _, fun ht' => .inr ⟨_, _, ht', rfl, .inl rfl⟩⟩
  cases ht : db.txs i with
  | active st ws =>
    rw [exec_of_active ht hb] at h
    cases ok
    · obtain ⟨rfl, rfl⟩ := eq_of_some_pair h
      constructor
      · cases stmt <;> simp [Server.execFail]
      · intro st' ws' ht'; cases stmt <;> simp [Server.execFail] at ht'
    · obtain ⟨hseq, hws⟩ := execOk_ids ht (by simpa using h)
      exact ⟨hseq, fun ht' => .inr ⟨st, ws, rfl, hws ht'⟩⟩
  | failed =>
    rw [exec_of_failed ht hb] at h
    obtain ⟨rfl, rfl⟩ := eq_of_some_pair h
    constructor
    · cases stmt <;> simp [Server.execAborted]
    · intro st' ws' ht'; cases stmt <;> simp [Server.execAborted, ht] at ht'
  | done => rw [exec_of_done ht hb] at h; cases h; exact ⟨Nat.le_refl _, fun ht' => by simp [ht] at ht'⟩
  | none => rw [exec_of_none ht hb] at h; cases h; exact ⟨Nat.le_refl _, fun ht' => by simp [ht] at ht'⟩

/-- A statement keeps the ids in order, given that only the lock holder's transaction has
written anything. -/
theorem idsInv_exec (hw : ∀ {j st ws}, db.txs j = .active st ws → ws = [] ∨ db.holder = some j)
    (h : IdsInv db) (hx : db.exec i stmt ok = some (db', r)) : IdsInv db' := by
  obtain ⟨hseq, hown⟩ := exec_ids hx
  -- the committed rows: as they were, or a commit adds its transaction's rows after them
  have hcommitted : Numbered db'.committed.eeIds db'.eeSeq := by
    cases exec_shared hx with
    | commit ha _ hc _ => rw [hc, applyAll_eeIds]; exact (h.active ha).mono hseq
    | quiet hc _ _ | acquire _ hc _ _ | rollback _ hc _ => rw [hc]; exact h.committed.mono hseq
  refine ⟨hcommitted, fun {j st ws} hj => ?_⟩
  by_cases hji : j = i
  · subst hji
    rcases hown hj with rfl | ⟨st₀, ws₀, h₀, hc, hins | ⟨hins, hlt⟩⟩
    · simpa using hcommitted
    · rw [hc, hins]; exact (h.active h₀).mono hseq
    · rw [hc, hins, ← List.append_assoc]; exact (h.active h₀).append_seq hlt
  · rw [exec_txs_ne hx hji] at hj
    cases exec_shared hx with
    | commit ha _ hc _ =>
      -- of the committing transaction and `j`'s, only the lock holder's has written
      rcases hw hj with rfl | hhj
      · simpa using hcommitted
      · rcases hw ha with rfl | hhi
        · rw [hc, applyAll_nil]; exact (h.active hj).mono hseq
        · exact absurd (Option.some.inj (hhj.symm.trans hhi)) hji
    | quiet hc _ _ | acquire _ hc _ _ | rollback _ hc _ => rw [hc]; exact (h.active hj).mono hseq

/-- Ending a transaction without committing changes nothing else the ids depend on. -/
theorem IdsInv.finish (h : IdsInv db) (o : Option (List Write)) : IdsInv (db.finish i o) where
  committed := by simpa using h.committed
  active {j _ _} hj := by
    by_cases hji : j = i
    · subst hji; simp at hj
    · simpa using h.active (by simpa [Function.update_noteq hji] using hj)

/-- Dropping a connection ends its transaction, if any. -/
theorem IdsInv.abort (h : IdsInv db) (i : Nat) : IdsInv (db.abort i) := by
  unfold Server.abort
  split
  · exact h.finish none
  · exact h.finish none
  · exact h
  · exact h

end

/-! ## The invariant -/

theorem idsInv_step {w w' : World} {l : Label} (hi : Inv w) (h : IdsInv w.db)
    (hs : step w l = some w') : IdsInv w'.db := by
  cases l with
  | run i ok =>
    obtain ⟨_, _, _, _, -, hexec, rfl⟩ := step_run hs
    exact idsInv_exec (fun ht => (hi.clients _).writes_or_holder ht) h hexec
  | commitLost i =>
    obtain ⟨_, _, _, -, hexec, rfl⟩ := step_commitLost hs
    exact idsInv_exec (fun ht => (hi.clients _).writes_or_holder ht) h hexec
  | call i k => simp only [step] at hs; split at hs <;> cases hs; exact h
  | abort i => simp only [step, Option.some.injEq] at hs; subst hs; exact h.abort i
  | tick => simp only [step, Option.some.injEq] at hs; subst hs; exact ⟨h.committed, h.active⟩

theorem idsInv_reachable {w : World} (h : Reachable w) : IdsInv w.db := by
  induction h with
  | init => exact idsInv_init
  | tail hr hs ih => exact idsInv_step (inv_reachable hr) ih hs

/--
**Committed key records are numbered in insertion order.** In every reachable world the ids
of the committed `endentities` rows strictly increase in table order and are all below the
sequence's next value. With `committed_records_kept`: a row that a later commit adds has a
larger id than every row committed before it, and no id is ever used twice.
-/
theorem committed_ids_increasing {w : World} (hr : Reachable w) :
    (w.db.committed.endentities.map EERow.id).Pairwise (· < ·) ∧
      ∀ r ∈ w.db.committed.endentities, r.id < w.db.eeSeq := by
  obtain ⟨hp, hlt⟩ := (idsInv_reachable hr).committed
  exact ⟨hp, fun r hr => hlt r.id (List.mem_map_of_mem _ hr)⟩

/-- Two clients' transactions, one after the other, commit three keys. -/
theorem committed_ids_increasing_three_keys :
    ∃ w, Reachable w ∧ w.db.committed.endentities.map EERow.id = [1, 2, 3] ∧
      ((w.db.committed.endentities.map EERow.id).Pairwise (· < ·) ∧
        ∀ r ∈ w.db.committed.endentities, r.id < w.db.eeSeq) := by
  obtain ⟨w, hw, hids⟩ : ∃ w, run World.init (insertTwice "L1" "L2" ++ insertThird) = some w ∧
      w.db.committed.endentities.map EERow.id = [1, 2, 3] := ⟨_, rfl, rfl⟩
  have hr := reachable_of_run .init hw
  exact ⟨w, hr, hids, committed_ids_increasing hr⟩

end Autograph.Database
