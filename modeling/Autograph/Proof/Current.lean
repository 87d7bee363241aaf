import Autograph.Proof.Commit
import Mathlib.Data.List.Nodup

/-!
# Which rows are current

`InsertEE` inserts its row with `is_current = true` and then demotes every other row of
the signer *whose label differs*. It does not demote rows with its own label. So after a
run of inserts for a signer, a row stays current exactly when every later insert for that
signer reused its label (`survivors`); with distinct labels that is only the last row.

The characterization is proved for the committed tables of every reachable world, against
the inserts that committed transactions made, in commit order (`committedInserts`, read
off the ghost lock log).
-/

namespace Autograph.Database

/-- The committed rows of signer `s` with `is_current = true`, in table order. -/
def currentRows (s : String) (t : Tables) : List EERow :=
  t.endentities.filter fun r => r.signerId == s && r.isCurrent

/-- Among rows inserted in the order `rs`, those for signer `s` that no later row for `s`
with another label follows. -/
def survivors (s : String) : List EERow → List EERow
  | [] => []
  | r :: rs =>
    if r.signerId = s ∧ ∀ x ∈ rs, x.signerId = s → x.label = r.label then r :: survivors s rs
    else survivors s rs

/-- The rows a list of writes inserts into `endentities`. -/
def insertedRows (ws : List Write) : List EERow :=
  ws.filterMap fun | .insertEE r => some r | _ => none

/-- The rows inserted by committed transactions, in commit order. -/
def committedInserts (events : List LockEvent) : List EERow :=
  events.flatMap fun | .release _ (some ws) => insertedRows ws | _ => []

/-! ## One `InsertEE` -/

section
variable {s : String}

theorem survivors_append_single (rs : List EERow) (r : EERow) :
    survivors s (rs ++ [r]) =
      if r.signerId = s then (survivors s rs).filter (fun x => x.label == r.label) ++ [r]
      else survivors s rs := by
  induction rs with
  | nil => by_cases h : r.signerId = s <;> simp [survivors, h]
  | cons x rs ih =>
    have hmem : (∀ y ∈ rs ++ [r], y.signerId = s → y.label = x.label) ↔
        (∀ y ∈ rs, y.signerId = s → y.label = x.label) ∧ (r.signerId = s → r.label = x.label) := by
      simp [or_imp, forall_and]
    rw [List.cons_append]
    simp only [survivors.eq_2, hmem, ih]
    by_cases hc : x.signerId = s ∧ ∀ y ∈ rs, y.signerId = s → y.label = x.label
    · by_cases hr : r.signerId = s
      · by_cases hl : r.label = x.label
        · rw [if_pos ⟨hc.1, hc.2, fun _ => hl⟩, if_pos hr, if_pos hr, if_pos hc]
          simp [hl]
        · rw [if_neg fun h => hl (h.2.2 hr), if_pos hr, if_pos hr, if_pos hc]
          simp [Ne.symm hl]
      · rw [if_pos ⟨hc.1, hc.2, fun h => absurd h hr⟩, if_neg hr, if_neg hr, if_pos hc]
    · rw [if_neg fun h => hc ⟨h.1, h.2.1⟩, if_neg hc]

/-- `UPDATE ... WHERE signer_id=$1 and label!=$2` on the current rows of one signer. -/
theorem currentRows_demote (rows : List EERow) (s' l : String) :
    (rows.map (demoteRow s' l)).filter (fun r => r.signerId == s && r.isCurrent) =
      if s' = s then (rows.filter fun r => r.signerId == s && r.isCurrent).filter
          (fun x => x.label == l)
      else rows.filter fun r => r.signerId == s && r.isCurrent := by
  have hkeep : ∀ x, ((demoteRow s' l x).signerId == s && (demoteRow s' l x).isCurrent) = true →
      demoteRow s' l x = x := by
    intro x hx; unfold demoteRow at hx ⊢; split_ifs at hx ⊢ <;> simp_all
  rw [List.filter_map]
  refine (List.map_congr_left (g := fun a => a) fun x hx =>
    hkeep x (by simpa using (List.mem_filter.mp hx).2)).trans ((List.map_id' _).trans ?_)
  split_ifs with h
  · subst h
    rw [List.filter_filter]
    refine List.filter_congr fun x _ => ?_
    by_cases hs : x.signerId = s' <;> by_cases hl : x.label = l <;> simp [demoteRow, hs, hl]
  · refine List.filter_congr fun x _ => ?_
    by_cases hs : x.signerId = s' <;> simp [demoteRow, hs]
    split_ifs <;> simp_all

/-- **One `InsertEE`.** Its row becomes current, and of the signer's current rows only
those with its label stay current; other signers are untouched. -/
theorem currentRows_block {r : EERow} (hr : r.isCurrent = true) (t : Tables) :
    currentRows s (applyAll (block r) t) =
      if r.signerId = s then (currentRows s t).filter (fun x => x.label == r.label) ++ [r]
      else currentRows s t := by
  simp only [currentRows, block, applyAll_cons, applyAll_nil, Write.apply, List.map_append,
    List.map_singleton, List.filter_append, currentRows_demote]
  by_cases h : r.signerId = s <;> simp [h, demoteRow, hr]

/-- A run of `InsertEE` calls, on tables whose current rows are the survivors of `X`. -/
theorem currentRows_blocks {T : Tables} {X : List EERow} (h : currentRows s T = survivors s X) :
    ∀ {rs : List EERow}, (∀ r ∈ rs, r.isCurrent = true) →
      currentRows s (applyAll (blocks rs) T) = survivors s (X ++ rs) := by
  intro rs
  induction rs using List.reverseRecOn with
  | nil => simpa using h
  | append_singleton rs r ih =>
    intro hc
    have hr : r.isCurrent = true := hc r (by simp)
    rw [blocks_append, applyAll_append, show blocks [r] = block r by simp [blocks],
      currentRows_block hr, ih fun x hx => hc x (by simp [hx]), ← List.append_assoc,
      survivors_append_single]

/-- Every survivor is an insert for `s`. -/
theorem mem_survivors {X : List EERow} {x : EERow} (h : x ∈ survivors s X) :
    x ∈ X ∧ x.signerId = s := by
  induction X with
  | nil => cases h
  | cons r rs ih =>
    unfold survivors at h
    split_ifs at h with hc
    · rcases List.mem_cons.mp h with rfl | h
      · exact ⟨List.mem_cons_self _ _, hc.1⟩
      · exact ⟨List.mem_cons_of_mem _ (ih h).1, (ih h).2⟩
    · exact ⟨List.mem_cons_of_mem _ (ih h).1, (ih h).2⟩

/-- With distinct labels per signer, only the last insert for `s` survives. -/
theorem survivors_of_nodup {X : List EERow}
    (h : ((X.filter fun r => r.signerId == s).map EERow.label).Nodup) :
    survivors s X = (X.filter fun r => r.signerId == s).getLast?.toList := by
  induction X using List.reverseRecOn with
  | nil => rfl
  | append_singleton X r ih =>
    rw [survivors_append_single]
    by_cases hr : r.signerId = s
    · have hf : (X ++ [r]).filter (fun r => r.signerId == s) =
          X.filter (fun r => r.signerId == s) ++ [r] := by simp [hr]
      rw [hf, List.map_append, List.nodup_append] at h
      have hnone : (survivors s X).filter (fun x => x.label == r.label) = [] := by
        refine List.filter_eq_nil_iff.mpr fun x hx hl => ?_
        obtain ⟨hxX, hxs⟩ := mem_survivors hx
        exact h.2.2 (List.mem_map_of_mem _ (List.mem_filter.mpr ⟨hxX, by simpa using hxs⟩))
          (by simpa using hl)
      rw [if_pos hr, hf, hnone]
      simp
    · have hf : (X ++ [r]).filter (fun r => r.signerId == s) =
          X.filter (fun r => r.signerId == s) := by simp [hr]
      rw [hf] at h
      rw [if_neg hr, hf, ih h]

theorem insertedRows_blocks (rs : List EERow) : insertedRows (blocks rs) = rs := by
  induction rs with
  | nil => rfl
  | cons r rs ih => simpa [insertedRows, blocks, block] using ih

/-- What a committed `End` transaction inserted: its `InsertEE` rows. -/
theorem insertedRows_committed (rs : List EERow) (n : Nat) (tm : Int) :
    insertedRows (.insertLock (lockRow n) :: blocks rs ++ [.freeLock n tm]) = rs := by
  simpa [insertedRows, List.filterMap_append] using insertedRows_blocks rs

end

/-! ## The committed tables -/

section
variable {s : String}

/-- The serial run of completed intervals: current rows are the survivors of what they
committed. -/
theorem currentRows_serial {done : List Interval}
    (h : ∀ iv ∈ done, ∀ ws, iv.committed = some ws → CommittedShape ws) :
    currentRows s (serial done) = survivors s (insertedRows (committedWrites done)) := by
  induction done using List.reverseRecOn with
  | nil => rfl
  | append_singleton done iv ih =>
    have ih := ih fun iv' hiv => h iv' (by simp [hiv])
    have hser : serial (done ++ [iv]) = applyAll (iv.committed.getD []) (serial done) := by
      simp [serial, committedWrites, applyAll_append]
    have hins : insertedRows (committedWrites (done ++ [iv])) =
        insertedRows (committedWrites done) ++ insertedRows (iv.committed.getD []) := by
      simp [committedWrites, insertedRows, List.filterMap_append]
    rw [hser, hins]
    cases hiv : iv.committed with
    | none => simpa [insertedRows] using ih
    | some ws =>
      obtain ⟨n, rs, tm, hc, rfl⟩ := h iv (by simp) ws hiv
      have he : currentRows s (applyAll (.insertLock (lockRow n) :: blocks rs ++ [.freeLock n tm])
          (serial done)) = currentRows s (applyAll (blocks rs) (serial done)) := by
        simp only [currentRows, applyAll_committed_endentities]
      rw [Option.getD_some, he, currentRows_blocks ih hc, insertedRows_committed]

theorem committedInserts_log {done : List Interval} {h : Option Nat} :
    committedInserts (intervalEvents done ++ openEvents h) =
      insertedRows (committedWrites done) := by
  cases h <;>
    simp [committedInserts, intervalEvents, openEvents, committedWrites, insertedRows,
      List.flatMap_assoc, List.filterMap_flatMap] <;>
    congr 1 <;> funext iv <;> cases iv.committed <;> rfl

/--
**The current rows of a signer.**

In every reachable world, the committed rows of signer `s` with `is_current = true` are
exactly the rows inserted by committed `InsertEE` calls for `s` that no later committed
`InsertEE` for `s` with a different label follows — in commit order, and in call order
within a transaction.
-/
theorem currentRows_eq_survivors {w : World} (hr : Reachable w) (s : String) :
    currentRows s w.db.committed = survivors s (committedInserts w.db.events) := by
  obtain ⟨done, hev, hser, hsh⟩ := (inv_reachable hr).log
  rw [hser, hev, committedInserts_log, currentRows_serial hsh]

/-- One client begins, inserts two keys for signer `"s"` under labels `label₁` and
`label₂`, and ends, every statement succeeding. -/
def insertTwice (label₁ label₂ : String) : List Label :=
  [.call 0 .beginEndEntityOperations, .run 0 true, .run 0 true, .run 0 true,
   .call 0 (.insertEE "u" label₁ "s" 7), .run 0 true, .run 0 true,
   .call 0 (.insertEE "u" label₂ "s" 8), .run 0 true, .run 0 true,
   .call 0 .«end», .run 0 true, .run 0 true]

/-- Reusing a label leaves both rows current. -/
theorem currentRows_insertTwice_same_label :
    ∃ w, Reachable w ∧ (w.clients 0).results =
        [.begin (some 1) none, .insert none, .insert none, .«end» none] ∧
      currentRows "s" w.db.committed =
        [⟨1, some "u", "L", "s", 7, true, 0⟩, ⟨2, some "u", "L", "s", 8, true, 0⟩] := by
  obtain ⟨w, hw, hres, hcur⟩ : ∃ w, run World.init (insertTwice "L" "L") = some w ∧
      (w.clients 0).results = [.begin (some 1) none, .insert none, .insert none, .«end» none] ∧
      currentRows "s" w.db.committed =
        [⟨1, some "u", "L", "s", 7, true, 0⟩, ⟨2, some "u", "L", "s", 8, true, 0⟩] :=
    ⟨_, rfl, rfl, rfl⟩
  exact ⟨w, reachable_of_run .init hw, hres, hcur⟩

/-- After the run with one label twice, the current rows are the survivors of the committed
inserts. -/
theorem currentRows_insertTwice_survivors :
    ∃ w, Reachable w ∧ run World.init (insertTwice "L" "L") = some w ∧
      currentRows "s" w.db.committed = survivors "s" (committedInserts w.db.events) := by
  obtain ⟨w, hw⟩ : ∃ w, run World.init (insertTwice "L" "L") = some w := ⟨_, rfl⟩
  exact ⟨w, reachable_of_run .init hw, hw, currentRows_eq_survivors (reachable_of_run .init hw) "s"⟩

/--
**Distinct labels: one current row.** If the committed inserts for `s` carry pairwise
distinct labels, the committed current rows of `s` are exactly the last of them, and none
if there is none.
-/
theorem currentRows_eq_last_insert {w : World} (hr : Reachable w) (s : String)
    (h : (((committedInserts w.db.events).filter fun r => r.signerId == s).map EERow.label).Nodup) :
    currentRows s w.db.committed =
      ((committedInserts w.db.events).filter fun r => r.signerId == s).getLast?.toList := by
  obtain ⟨done, hev, hser, hsh⟩ := (inv_reachable hr).log
  rw [hser, currentRows_serial hsh, ← committedInserts_log, ← hev, survivors_of_nodup h]

theorem currentRows_insertTwice_distinct :
    ∃ w, Reachable w ∧ currentRows "s" w.db.committed = [⟨2, some "u", "L2", "s", 8, true, 0⟩] := by
  obtain ⟨w, hw, hins⟩ : ∃ w, run World.init (insertTwice "L1" "L2") = some w ∧
      committedInserts w.db.events =
        [⟨1, some "u", "L1", "s", 7, true, 0⟩, ⟨2, some "u", "L2", "s", 8, true, 0⟩] :=
    ⟨_, rfl, rfl⟩
  have hr := reachable_of_run .init hw
  exact ⟨w, hr, by rw [currentRows_eq_last_insert hr "s" (by rw [hins]; decide), hins]; rfl⟩

end

end Autograph.Database
