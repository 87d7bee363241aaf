import Autograph.Database.Tables

/-!
# The database server, one statement at a time

The database package talks to PostgreSQL through `database/sql`. This module is the
server's side of that conversation, as far as the package's statements can observe it.

* Each session has at most one transaction. While it is `active` it carries its start
  time (what `NOW()` returns inside it) and the writes it has made so far.
* Reads see the committed tables with the session's own writes on top: the transaction's
  uncommitted writes are invisible to every other session (READ COMMITTED).
* A statement that fails puts an active transaction in PostgreSQL's aborted state
  (`failed`): every later statement fails until `ROLLBACK`, and its locks stay held.
* `COMMIT` replays the writes onto the committed tables; `ROLLBACK` drops them. Either
  ends the transaction, after which `database/sql` answers `ErrTxDone`.
* `LOCK TABLE endentities_lock IN ACCESS EXCLUSIVE MODE` conflicts with itself, so at
  most one transaction holds it, until its transaction ends. A request for it while
  another session holds it waits: the step is not enabled.
* The `SERIAL` sequences behind both tables' `id` columns are not transactional.

Whether a statement succeeds is the environment's choice (`ok`): connection loss, lock
timeouts, constraint violations and server errors are all a `false`. A failed statement
has no effect but the state change above. What the client then sees is its own matter: a
`COMMIT` the server carried out can still reach the client as a failure, when the
connection breaks before the reply.

`events` is ghost state: every lock acquisition and every release, with the writes the
release committed. It feeds no decision.
-/

namespace Autograph.Database

/-- Errors the driver reports for a statement. -/
inductive SqlErr where
  /-- `sql.ErrNoRows`: `QueryRow(...).Scan` found no row. -/
  | noRows
  /-- `sql.ErrTxDone`: the transaction was already committed or rolled back. -/
  | txDone
  /-- PostgreSQL: current transaction is aborted, commands ignored until end of block. -/
  | inFailedTx
  /-- Any other failure reported by the server or the connection. -/
  | failed
  deriving DecidableEq, Repr

/-- What a successful statement hands back. -/
inductive Answer where
  /-- `Exec`'s result, which the package ignores. -/
  | done
  /-- `RETURNING id`, scanned. -/
  | id (n : Nat)
  /-- One row of `SELECT label, x5u`, scanned. -/
  | row (label : String) (x5u : Option String)
  deriving DecidableEq, Repr

/-- A statement's outcome as the Go code sees it. -/
abbrev SqlResult := Except SqlErr Answer

/-- The statements the database package issues. -/
inductive Stmt where
  /-- `db.Begin()`. -/
  | begin
  /-- `LOCK TABLE endentities_lock IN ACCESS EXCLUSIVE MODE`. -/
  | lockTable
  /-- `INSERT INTO endentities_lock(is_locked) VALUES (true) RETURNING id`. -/
  | insertLock
  /-- The lookup query of `GetLabelOfLatestEE`. -/
  | selectLatestEE (signerId : String) (maxAge : Int)
  /-- `INSERT INTO endentities(x5u, label, signer_id, hsm_handle, is_current)`. -/
  | insertEE (x5u label signerId : String) (hsmHandle : Nat)
  /-- `UPDATE endentities SET is_current=FALSE WHERE signer_id=$1 and label!=$2`. -/
  | demote (signerId label : String)
  /-- `UPDATE endentities_lock SET is_locked=FALSE, freed_at=NOW() WHERE id=$1`. -/
  | freeLock (id : Nat)
  /-- `tx.Commit()`. -/
  | commit
  /-- `tx.Rollback()`. -/
  | rollback
  deriving DecidableEq, Repr

/-- A session's transaction, as the server and `database/sql` together see it. -/
inductive TxStatus where
  /-- No transaction begun. -/
  | none
  /-- Open: its start time and its writes so far. -/
  | active (start : Int) (writes : List Write)
  /-- Aborted by a failed statement, not yet ended. -/
  | failed
  /-- Committed or rolled back. -/
  | done
  deriving DecidableEq, Repr

/-- A change of the lock's holder. -/
inductive LockEvent where
  | acquire (i : Nat)
  /-- The holder's transaction ended, committing `committed` if it is `some`. -/
  | release (i : Nat) (committed : Option (List Write))
  deriving DecidableEq, Repr

/-- The server. -/
structure Server where
  committed : Tables
  /-- The session whose transaction holds the table lock. -/
  holder : Option Nat
  eeSeq : Nat
  lockSeq : Nat
  clock : Int
  txs : Nat → TxStatus
  events : List LockEvent

/-- A fresh database: empty tables, no transactions. -/
def Server.init : Server := ⟨Tables.empty, none, 1, 1, 0, fun _ => .none, []⟩

/-- Set session `i`'s transaction. -/
def Server.setTx (db : Server) (i : Nat) (t : TxStatus) : Server :=
  { db with txs := Function.update db.txs i t }

/-- Session `i`'s transaction ends; `o` is what it commits. Its lock, if held, is
released. -/
def Server.finish (db : Server) (i : Nat) (o : Option (List Write)) : Server :=
  if db.holder = some i then
    { db.setTx i .done with holder := none, events := db.events ++ [LockEvent.release i o] }
  else db.setTx i .done

/-- `QueryRow(...).Scan` of the lookup query on tables `t`. -/
def queryLatestEE (t : Tables) (signerId : String) (maxAge : Int) : SqlResult :=
  match selectLatestEE t.endentities signerId maxAge with
  | some r => .ok (.row r.label r.x5u)
  | none => .error .noRows

/-- A successful statement in an active transaction started at `st` with writes `ws`. -/
def Server.execOk (db : Server) (i : Nat) (st : Int) (ws : List Write) :
    Stmt → Option (Server × SqlResult)
  | .begin => some (db, .ok .done)
  | .lockTable =>
    match db.holder with
    | none => some ({ db with holder := some i, events := db.events ++ [LockEvent.acquire i] }, .ok .done)
    | some h => if h = i then some (db, .ok .done) else none
  | .insertLock =>
    some ({ db with lockSeq := db.lockSeq + 1 }.setTx i
      (.active st (ws ++ [Write.insertLock ⟨db.lockSeq, true, none⟩])), .ok (.id db.lockSeq))
  | .selectLatestEE s maxAge => some (db, queryLatestEE (applyAll ws db.committed) s maxAge)
  | .insertEE x5u label s h =>
    some ({ db with eeSeq := db.eeSeq + 1 }.setTx i
      (.active st (ws ++ [Write.insertEE ⟨db.eeSeq, some x5u, label, s, h, true, st⟩])), .ok .done)
  | .demote s label => some (db.setTx i (.active st (ws ++ [Write.demote s label])), .ok .done)
  | .freeLock id => some (db.setTx i (.active st (ws ++ [Write.freeLock id st])), .ok .done)
  | .commit => some ({ db with committed := applyAll ws db.committed }.finish i (some ws), .ok .done)
  | .rollback => some (db.finish i none, .ok .done)

/-- A failed statement in an active transaction. `ROLLBACK` still ends it. -/
def Server.execFail (db : Server) (i : Nat) : Stmt → Server × SqlResult
  | .commit => (db.finish i none, .error .failed)
  | .rollback => (db.finish i none, .ok .done)
  | _ => (db.setTx i .failed, .error .failed)

/-- A statement in an aborted transaction: only its end is accepted. -/
def Server.execAborted (db : Server) (i : Nat) : Stmt → Server × SqlResult
  | .commit => (db.finish i none, .error .inFailedTx)
  | .rollback => (db.finish i none, .ok .done)
  | _ => (db, .error .inFailedTx)

/-- Session `i` issues `stmt`, and the server reports `ok` or a failure; `none` while it
waits for the table lock. `db.Begin()` opens a transaction whatever came before it. -/
def Server.exec (db : Server) (i : Nat) (stmt : Stmt) (ok : Bool) : Option (Server × SqlResult) :=
  if stmt = .begin then
    if ok then some (db.setTx i (.active db.clock []), .ok .done) else some (db, .error .failed)
  else
    match db.txs i with
    | .active st ws => if ok then db.execOk i st ws stmt else some (db.execFail i stmt)
    | .failed => some (db.execAborted i stmt)
    | .none | .done => some (db, .error .txDone)

/-- The server terminates session `i`'s backend (connection loss, client exit): an open
transaction is rolled back. -/
def Server.abort (db : Server) (i : Nat) : Server :=
  match db.txs i with
  | .active _ _ | .failed => db.finish i none
  | .none | .done => db

/-! ## Field lemmas -/

@[simp] theorem Server.setTx_txs (db : Server) (i : Nat) (t : TxStatus) :
    (db.setTx i t).txs = Function.update db.txs i t := rfl

@[simp] theorem Server.setTx_committed (db : Server) (i : Nat) (t : TxStatus) :
    (db.setTx i t).committed = db.committed := rfl

@[simp] theorem Server.setTx_holder (db : Server) (i : Nat) (t : TxStatus) :
    (db.setTx i t).holder = db.holder := rfl

@[simp] theorem Server.setTx_events (db : Server) (i : Nat) (t : TxStatus) :
    (db.setTx i t).events = db.events := rfl

@[simp] theorem Server.setTx_lockSeq (db : Server) (i : Nat) (t : TxStatus) :
    (db.setTx i t).lockSeq = db.lockSeq := rfl

@[simp] theorem Server.setTx_clock (db : Server) (i : Nat) (t : TxStatus) :
    (db.setTx i t).clock = db.clock := rfl

end Autograph.Database
