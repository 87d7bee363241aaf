import Mathlib.Data.List.Basic

/-!
# The two tables and what a statement writes to them

`endentities` holds one row per end-entity key a signer ever made; `endentities_lock` one
row per lock ticket. The store is a pair of row lists, in insertion order.

A transaction does not change the tables as it runs. It accumulates a list of `Write`s,
one per successful data-modifying statement, and the tables it reads are the committed
ones with that list replayed on top (`applyAll`). Commit replays the list onto the
committed tables. Only the four statements the database package issues are modelled:

* `INSERT INTO endentities(...) VALUES (...)` from `InsertEE`,
* `UPDATE endentities SET is_current=FALSE WHERE signer_id=$1 and label!=$2`, ditto,
* `INSERT INTO endentities_lock(is_locked) VALUES (true)` from `BeginEndEntityOperations`,
* `UPDATE endentities_lock SET is_locked=FALSE, freed_at=NOW() WHERE id=$1` from `End`.

Timestamps are `Int`: `created_at > now - youngerThan` is compared in Go's `time.Time`,
where the bound may lie before any row.
-/

namespace Autograph.Database

/-- A row of `endentities`. `x5u` is nullable. -/
structure EERow where
  id : Nat
  x5u : Option String
  label : String
  signerId : String
  hsmHandle : Nat
  isCurrent : Bool
  createdAt : Int
  deriving DecidableEq, Repr

/-- A row of `endentities_lock`. `freed_at` is nullable. -/
structure LockRow where
  id : Nat
  isLocked : Bool
  freedAt : Option Int
  deriving DecidableEq, Repr

/-- Both tables. -/
structure Tables where
  endentities : List EERow
  endentitiesLock : List LockRow
  deriving DecidableEq, Repr

/-- The empty store. -/
def Tables.empty : Tables := ⟨[], []⟩

/-- The effect of one successful data-modifying statement. -/
inductive Write where
  /-- `INSERT INTO endentities`: the new row. -/
  | insertEE (r : EERow)
  /-- `UPDATE endentities SET is_current=FALSE WHERE signer_id=$1 and label!=$2`. -/
  | demote (signerId label : String)
  /-- `INSERT INTO endentities_lock(is_locked)`: the new row. -/
  | insertLock (r : LockRow)
  /-- `UPDATE endentities_lock SET is_locked=FALSE, freed_at=NOW() WHERE id=$1`. -/
  | freeLock (id : Nat) (now : Int)
  deriving DecidableEq, Repr

/-- The `is_current` update on one row. -/
def demoteRow (signerId label : String) (r : EERow) : EERow :=
  if r.signerId = signerId ∧ r.label ≠ label then { r with isCurrent := false } else r

/-- The lock-release update on one row. -/
def freeRow (id : Nat) (now : Int) (r : LockRow) : LockRow :=
  if r.id = id then { r with isLocked := false, freedAt := some now } else r

/-- One write applied to the tables. -/
def Write.apply : Write → Tables → Tables
  | .insertEE r, t => { t with endentities := t.endentities ++ [r] }
  | .demote s l, t => { t with endentities := t.endentities.map (demoteRow s l) }
  | .insertLock r, t => { t with endentitiesLock := t.endentitiesLock ++ [r] }
  | .freeLock id now, t => { t with endentitiesLock := t.endentitiesLock.map (freeRow id now) }

/-- A list of writes applied in order. -/
def applyAll (ws : List Write) (t : Tables) : Tables := ws.foldl (fun t w => w.apply t) t

@[simp] theorem applyAll_nil (t : Tables) : applyAll [] t = t := rfl

@[simp] theorem applyAll_cons (w : Write) (ws : List Write) (t : Tables) :
    applyAll (w :: ws) t = applyAll ws (w.apply t) := rfl

theorem applyAll_append (ws ws' : List Write) (t : Tables) :
    applyAll (ws ++ ws') t = applyAll ws' (applyAll ws t) := List.foldl_append _ _ _ _

/-- What a write does to `endentities` depends on `endentities` alone. -/
theorem Write.apply_endentities_congr {t t' : Tables} (w : Write)
    (h : t.endentities = t'.endentities) : (w.apply t).endentities = (w.apply t').endentities := by
  cases w <;> simp [Write.apply, h]

theorem applyAll_endentities_congr {t t' : Tables} (ws : List Write)
    (h : t.endentities = t'.endentities) :
    (applyAll ws t).endentities = (applyAll ws t').endentities := by
  induction ws generalizing t t' with
  | nil => exact h
  | cons w ws ih => exact ih (w.apply_endentities_congr h)

/-! ## The lookup query

```
SELECT label, x5u FROM endentities
WHERE is_current=TRUE AND signer_id=$1 AND created_at > $2
ORDER BY created_at DESC LIMIT 1
```
SQL leaves the order of rows with equal `created_at` open; the model takes the first in
table order.
-/

/-- The `WHERE` clause of the lookup. -/
def Qualifies (signerId : String) (maxAge : Int) (r : EERow) : Bool :=
  r.isCurrent && r.signerId == signerId && decide (maxAge < r.createdAt)

/-- `ORDER BY created_at DESC LIMIT 1`. -/
def newest : List EERow → Option EERow
  | [] => none
  | r :: rs =>
    match newest rs with
    | none => some r
    | some b => if r.createdAt < b.createdAt then some b else some r

/-- The row the lookup query returns, if any. -/
def selectLatestEE (rows : List EERow) (signerId : String) (maxAge : Int) : Option EERow :=
  newest (rows.filter (Qualifies signerId maxAge))

theorem newest_eq_none {rs : List EERow} : newest rs = none ↔ rs = [] := by
  cases rs with
  | nil => simp [newest]
  | cons r rs => simp only [newest, reduceCtorEq, iff_false]; split <;> [simp; split <;> simp]

/-- The row `newest` picks is in the list and no row of the list is younger. -/
theorem newest_spec {rs : List EERow} {b : EERow} (h : newest rs = some b) :
    b ∈ rs ∧ ∀ r ∈ rs, r.createdAt ≤ b.createdAt := by
  induction rs generalizing b with
  | nil => simp [newest] at h
  | cons r rs ih =>
    simp only [newest] at h
    split at h
    · rename_i hn
      cases h
      simp [newest_eq_none.mp hn]
    · rename_i b' hb'
      obtain ⟨hmem, hle⟩ := ih hb'
      split at h <;> cases h
      · rename_i hlt
        exact ⟨.tail _ hmem, List.forall_mem_cons.mpr ⟨Int.le_of_lt hlt, hle⟩⟩
      · rename_i hge
        exact ⟨.head _, List.forall_mem_cons.mpr
          ⟨Int.le_refl _, fun x hx => Int.le_trans (hle x hx) (Int.not_lt.mp hge)⟩⟩

/-- **What the lookup query returns.** A row only when it is a newest qualifying row;
no row only when none qualifies. -/
theorem selectLatestEE_spec (rows : List EERow) (signerId : String) (maxAge : Int) :
    match selectLatestEE rows signerId maxAge with
    | some b => b ∈ rows ∧ Qualifies signerId maxAge b ∧
        ∀ r ∈ rows, Qualifies signerId maxAge r → r.createdAt ≤ b.createdAt
    | none => ∀ r ∈ rows, Qualifies signerId maxAge r = false := by
  unfold selectLatestEE
  split
  · rename_i b hb
    obtain ⟨hmem, hle⟩ := newest_spec hb
    obtain ⟨hmem, hq⟩ := List.mem_filter.mp hmem
    exact ⟨hmem, hq, fun r hr hq' => hle r (List.mem_filter.mpr ⟨hr, hq'⟩)⟩
  · rename_i hn
    intro r hr
    have := List.filter_eq_nil_iff.mp (newest_eq_none.mp hn) r hr
    simpa using this

end Autograph.Database
