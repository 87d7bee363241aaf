import Autograph.Database.Server

/-!
# The end-entity operations, statement by statement

`BeginEndEntityOperations`, `GetLabelOfLatestEE`, `InsertEE` and `End` each issue a few
SQL statements. Another client can act between any two of them, so a call is modelled as
a small program: each program point names the statement it issues and says what the
statement's result leads to — the next point, or a return to the caller. `Pc` records
where a client stands.

A client is one `*Transaction` as its caller uses it: it calls
`BeginEndEntityOperations` once, then, holding the returned handle, any sequence of the
other three. Clients interleave arbitrarily; a client may stop at any point, and
`abort` lets the server drop its connection. The connection can also break after the
server has committed a transaction but before the client has the reply (`commitLost`):
`database/sql` then reports an error for `COMMIT`, although the writes are committed.
-/

namespace Autograph.Database

/-- The errors the package returns. -/
inductive Err where
  /-- `ErrNoSuitableEEFound`: "no suitable key found in database". -/
  | noSuitableEEFound
  /-- `errors.Wrap(cause, msg)`. -/
  | wrap (msg : String) (cause : SqlErr)
  deriving DecidableEq, Repr

/-- What a call returns to its caller. -/
inductive Ret where
  /-- `BeginEndEntityOperations`: the handle, by its lock row's id (`Transaction.ID`),
  or an error. -/
  | begin (tx : Option Nat) (err : Option Err)
  /-- `GetLabelOfLatestEE`: `(label, x5u, err)`. -/
  | lookup (label x5u : String) (err : Option Err)
  | insert (err : Option Err)
  | «end» (err : Option Err)
  deriving DecidableEq, Repr

/-- A program point's continuation: another point, or a return value. -/
inductive Next (P R : Type) where
  | goto (p : P)
  | ret (r : R)

/-- The points of `BeginEndEntityOperations`. -/
inductive BeginPc where
  | begin
  | lock
  | lockFailed (e : SqlErr)
  | insert
  | insertFailed (e : SqlErr)
  deriving DecidableEq, Repr

/-- `Handler.BeginEndEntityOperations`: the statement each point issues and what its
result leads to. -/
def beginEndEntityOperations :
    BeginPc → Stmt × (SqlResult → Next BeginPc (Option Nat × Option Err))
  | .begin => (.begin, fun
    | .error e => .ret (none, some (.wrap "failed to create transaction" e))
    | .ok _ => .goto .lock)
  | .lock => (.lockTable, fun
    | .error e => .goto (.lockFailed e)
    | .ok _ => .goto .insert)
  | .lockFailed e =>
    (.rollback, fun _ => .ret (none, some (.wrap "failed to lock endentities table" e)))
  | .insert => (.insertLock, fun
    | .ok (.id n) => .ret (some n, none)
    | .ok _ => .goto (.insertFailed .noRows)
    | .error e => .goto (.insertFailed e))
  | .insertFailed e =>
    (.rollback, fun _ => .ret (none, some (.wrap "failed to lock endentities table" e)))

/-- `Transaction.GetLabelOfLatestEE`, once `maxAge := time.Now().Add(-youngerThan)` is
computed: one query, then the result handling. -/
def getLabelOfLatestEE (signerId : String) (maxAge : Int) :
    Stmt × (SqlResult → String × String × Option Err) :=
  (.selectLatestEE signerId maxAge, fun
    | .error .noRows => ("", "", some .noSuitableEEFound)
    -- `Scan` fills `label` and `nullableX5U` only when it succeeds, and
    -- `x5uValue, err := nullableX5U.Value()` then overwrites the result `err` with
    -- `Value`'s error, which is always nil
    | .ok (.row label x5u) => (label, x5u.getD "", none)
    | _ => ("", "", none))

/-- The points of `InsertEE`. -/
inductive InsertPc where
  | insert (x5u label signerId : String) (hsmHandle : Nat)
  | insertFailed (e : SqlErr)
  | demote (signerId label : String)
  | demoteFailed (e : SqlErr)
  deriving DecidableEq, Repr

/-- `Transaction.InsertEE`. -/
def insertEE : InsertPc → Stmt × (SqlResult → Next InsertPc (Option Err))
  | .insert x5u label signerId hsmHandle => (.insertEE x5u label signerId hsmHandle, fun
    | .error e => .goto (.insertFailed e)
    | .ok _ => .goto (.demote signerId label))
  | .insertFailed e =>
    (.rollback, fun _ => .ret (some (.wrap "failed to insert new key in database" e)))
  | .demote signerId label => (.demote signerId label, fun
    | .error e => .goto (.demoteFailed e)
    | .ok _ => .ret none)
  | .demoteFailed e => (.rollback, fun _ =>
    .ret (some (.wrap "failed to update is_current status of keys in database" e)))

/-- The points of `End`. -/
inductive EndPc where
  | update
  | updateFailed (e : SqlErr)
  | commit
  | commitFailed (e : SqlErr)
  deriving DecidableEq, Repr

/-- `Transaction.End`, for the transaction whose lock row is `id`. The first error
message is the one `InsertEE` uses, as in the source. -/
def «end» (id : Nat) : EndPc → Stmt × (SqlResult → Next EndPc (Option Err))
  | .update => (.freeLock id, fun
    | .error e => .goto (.updateFailed e)
    | .ok _ => .goto .commit)
  | .updateFailed e => (.rollback, fun _ =>
    .ret (some (.wrap "failed to update is_current status of keys in database" e)))
  | .commit => (.commit, fun
    | .error e => .goto (.commitFailed e)
    | .ok _ => .ret none)
  | .commitFailed e =>
    (.rollback, fun _ => .ret (some (.wrap "failed to commit transaction in database" e)))

/-- Where a client stands: between calls, or at a point of one. -/
inductive Pc where
  | idle
  | begin (p : BeginPc)
  | lookup (signerId : String) (maxAge : Int)
  | insert (p : InsertPc)
  | «end» (p : EndPc)
  deriving DecidableEq, Repr

/-- `GetLabelOfLatestEE`'s three results, as a call's return. -/
def Ret.ofLookup : String × String × Option Err → Ret
  | (label, x5u, err) => .lookup label x5u err

@[simp] theorem Ret.ofLookup_eq (v : String × String × Option Err) :
    Ret.ofLookup v = .lookup v.1 v.2.1 v.2.2 := rfl

/-- A continuation of one call, seen from the client. -/
def Next.map {P Q R S : Type} (f : P → Q) (g : R → S) : Next P R → Next Q S
  | .goto p => .goto (f p)
  | .ret r => .ret (g r)

/-- The statement a client at `pc` issues next, with its continuation. `id` is its
handle's lock-row id, which only `End` reads. -/
def Pc.prog (id : Nat) : Pc → Option (Stmt × (SqlResult → Next Pc Ret))
  | .idle => none
  | .begin p => some ((beginEndEntityOperations p).1, fun r =>
    ((beginEndEntityOperations p).2 r).map .begin fun v => .begin v.1 v.2)
  | .lookup s maxAge =>
    some ((getLabelOfLatestEE s maxAge).1, fun r => .ret (.ofLookup ((getLabelOfLatestEE s maxAge).2 r)))
  | .insert p => some ((insertEE p).1, fun r => ((insertEE p).2 r).map .insert .insert)
  | .«end» p => some ((Database.«end» id p).1, fun r => ((Database.«end» id p).2 r).map .«end» .«end»)

/-- A client: its handle once `BeginEndEntityOperations` returned one, where it stands,
and what its calls returned, oldest first. -/
structure Client where
  handle : Option Nat
  pc : Pc
  results : List Ret
  deriving DecidableEq, Repr

/-- A call a client can make. -/
inductive Call where
  | beginEndEntityOperations
  /-- `GetLabelOfLatestEE(signerId, youngerThan)`, with `now` the client's `time.Now()`. -/
  | getLabelOfLatestEE (signerId : String) (youngerThan now : Int)
  | insertEE (x5u label signerId : String) (hsmHandle : Nat)
  | «end»
  deriving DecidableEq, Repr

/-- Where a call starts. -/
def Call.entry : Call → Pc
  | .beginEndEntityOperations => .begin .begin
  | .getLabelOfLatestEE s youngerThan now => .lookup s (now - youngerThan)
  | .insertEE x5u label s h => .insert (.insert x5u label s h)
  | .«end» => .«end» .update

/-- A client calls `BeginEndEntityOperations` once, first; the methods of `Transaction`
need its handle. Calls are sequential. -/
def Call.allowed (c : Client) : Call → Bool
  | .beginEndEntityOperations => c.pc == .idle && c.results.isEmpty
  | _ => c.pc == .idle && c.handle.isSome

/-- The database and every client. -/
structure World where
  db : Server
  clients : Nat → Client

/-- No client has started. -/
def World.init : World := ⟨Server.init, fun _ => ⟨none, .idle, []⟩⟩

/-- A client after its statement's result led to `n`. -/
def Client.after (c : Client) : Next Pc Ret → Client
  | .goto p => { c with pc := p }
  | .ret v =>
    { c with pc := .idle, results := c.results ++ [v],
             handle := match v with | .begin (some id) _ => some id | _ => c.handle }

/-- What can happen next. -/
inductive Label where
  /-- Client `i` makes a call. -/
  | call (i : Nat) (k : Call)
  /-- Client `i` issues its next statement; the server reports `ok` or a failure. -/
  | run (i : Nat) (ok : Bool)
  /-- The server drops client `i`'s connection. -/
  | abort (i : Nat)
  /-- Client `i` issues `COMMIT`, the server commits, and the connection breaks before the
  reply arrives: the client sees a failure. -/
  | commitLost (i : Nat)
  /-- The server's clock advances. -/
  | tick

/-- One step; `none` when it is not enabled. -/
def step (w : World) : Label → Option World
  | .call i k =>
    if k.allowed (w.clients i) then
      some { w with clients := Function.update w.clients i { w.clients i with pc := k.entry } }
    else none
  | .run i ok =>
    match (w.clients i).pc.prog ((w.clients i).handle.getD 0) with
    | none => none
    | some (stmt, k) =>
      match w.db.exec i stmt ok with
      | none => none
      | some (db, r) => some ⟨db, Function.update w.clients i ((w.clients i).after (k r))⟩
  | .abort i => some { w with db := w.db.abort i }
  | .commitLost i =>
    match (w.clients i).pc.prog ((w.clients i).handle.getD 0) with
    | some (.commit, k) =>
      match w.db.exec i .commit true with
      | some (db, .ok _) =>
        some ⟨db, Function.update w.clients i ((w.clients i).after (k (.error .failed)))⟩
      | _ => none
    | _ => none
  | .tick => some { w with db := { w.db with clock := w.db.clock + 1 } }

/-- The worlds some interleaving reaches. -/
inductive Reachable : World → Prop where
  | init : Reachable World.init
  | tail {w w' : World} {l : Label} : Reachable w → step w l = some w' → Reachable w'

/-- Steps run in order; `none` if one is not enabled. -/
def run (w : World) : List Label → Option World
  | [] => some w
  | l :: ls => (step w l).bind (run · ls)

theorem reachable_of_run {w w' : World} (h : Reachable w) :
    ∀ {ls : List Label}, run w ls = some w' → Reachable w' := by
  intro ls
  induction ls generalizing w with
  | nil => intro hr; cases hr; exact h
  | cons l ls ih =>
    intro hr
    simp only [run, Option.bind_eq_some] at hr
    obtain ⟨w₁, h₁, h₂⟩ := hr
    exact ih (.tail h h₁) h₂

end Autograph.Database
