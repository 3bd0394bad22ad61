/-
# MarketPilot.Foundation.Transaction — transactions over an append-only database

A transaction is a tree of SQL statements: take an advisory lock, read, insert with
`ON CONFLICT DO NOTHING`, and in the end commit (`done`) or roll back (`fail`).  A read hands the
statement's snapshot to the rest of the transaction, so the code between two statements is ordinary
Lean.  Rows are never updated or deleted; every `INSERT` draws a ticket from a counter that is not
rolled back, as an identity column does.

The same transaction has two meanings.

* `Txn.exec` runs it alone, as a function on tables.
* `Step` interleaves the statements of any number of clients over shared tables.  Advisory locks are
  exclusive and held to the end of the transaction, a read sees what is committed when it runs and the
  transaction's own rows, an insert waits for another transaction that holds an uncommitted row with
  the same key, and any open transaction may be rolled back at any moment.

## Rely and guarantee

A `Discipline` names the rows each lock guards and an invariant of the committed rows.  `Safe` is the
verification condition of one transaction on its own: whatever other clients commit between two of
its statements, as long as they commit no row guarded by a lock it holds, its own commit keeps the
invariant and commits only rows guarded by its own locks.  `reachable_sound` composes safe
transactions: in every reachable world the invariant holds, keys are unique, and the tables only grow.

`turn` executes a schedule of a finite number of clients; what it reaches is reachable.
-/
import Mathlib.Logic.Relation
import Mathlib.Logic.Function.Basic
import Mathlib.Data.Fintype.Defs
import Mathlib.Data.List.Nodup
import Mathlib.Tactic.Common

namespace MarketPilot.Foundation

/-! ## Transactions and running one alone -/

/-- A transaction over rows `Row`, locks `Lock` and exceptions `ε`. -/
inductive Txn (Row Lock ε α : Type) where
  | done (a : α)
  | fail (e : ε)
  | lock (k : Lock) (next : Txn Row Lock ε α)
  | read (next : List Row → Txn Row Lock ε α)
  | insert (row : Nat → Row) (next : Bool → Txn Row Lock ε α)

/-- Committed rows in commit order, and the next identity value. -/
structure Tables (Row : Type) where
  rows : List Row
  ticket : Nat
  deriving DecidableEq

namespace Tables

/-- Freshly created tables. -/
def fresh {Row : Type} : Tables Row := ⟨[], 1⟩

end Tables

namespace Txn

variable {Row Lock ε α β Key : Type}

protected def bind : Txn Row Lock ε α → (α → Txn Row Lock ε β) → Txn Row Lock ε β
  | .done a, f => f a
  | .fail e, _ => .fail e
  | .lock k next, f => .lock k (next.bind f)
  | .read next, f => .read fun rows => (next rows).bind f
  | .insert row next, f => .insert row fun ok => (next ok).bind f

instance : Monad (Txn Row Lock ε) where
  pure := .done
  bind := Txn.bind

/-- `SELECT`. -/
def select (q : List Row → α) : Txn Row Lock ε α := .read fun rows => .done (q rows)

/-- `SELECT pg_advisory_xact_lock(k)`. -/
def advisoryLock (k : Lock) : Txn Row Lock ε Unit := .lock k (.done ())

/-- `INSERT ... ON CONFLICT DO NOTHING`; the answer is `rowcount = 1`. -/
def insertRow (row : Nat → Row) : Txn Row Lock ε Bool := .insert row .done

/-- A check between two statements: it raises or goes on. -/
def ofExcept : Except ε α → Txn Row Lock ε α
  | .ok a => .done a
  | .error e => .fail e

@[simp] theorem ofExcept_ok (a : α) : (ofExcept (.ok a) : Txn Row Lock ε α) = .done a := rfl

@[simp] theorem ofExcept_error (e : ε) : (ofExcept (.error e) : Txn Row Lock ε α) = .fail e := rfl

@[simp] theorem pure_eq (a : α) : (pure a : Txn Row Lock ε α) = .done a := rfl

@[simp] theorem done_bind (a : α) (f : α → Txn Row Lock ε β) : (Txn.done a >>= f) = f a := rfl

@[simp] theorem fail_bind (e : ε) (f : α → Txn Row Lock ε β) : (Txn.fail e >>= f) = .fail e := rfl

@[simp] theorem select_bind (q : List Row → α) (f : α → Txn Row Lock ε β) :
    (select q >>= f) = .read fun rows => f (q rows) := rfl

@[simp] theorem advisoryLock_bind (k : Lock) (f : Unit → Txn Row Lock ε β) :
    (advisoryLock k >>= f) = .lock k (f ()) := rfl

@[simp] theorem insertRow_bind (row : Nat → Row) (f : Bool → Txn Row Lock ε β) :
    (insertRow row >>= f) = .insert row f := rfl

@[simp] theorem lock_bind (k : Lock) (next : Txn Row Lock ε α) (f : α → Txn Row Lock ε β) :
    (Txn.lock k next >>= f) = .lock k (next >>= f) := rfl

@[simp] theorem read_bind (next : List Row → Txn Row Lock ε α) (f : α → Txn Row Lock ε β) :
    (Txn.read next >>= f) = .read fun rows => next rows >>= f := rfl

@[simp] theorem insert_bind (row : Nat → Row) (next : Bool → Txn Row Lock ε α)
    (f : α → Txn Row Lock ε β) :
    (Txn.insert row next >>= f) = .insert row fun ok => next ok >>= f := rfl

theorem ite_bind (c : Prop) [Decidable c] (m n : Txn Row Lock ε α) (f : α → Txn Row Lock ε β) :
    ((if c then m else n) >>= f) = if c then m >>= f else n >>= f := by
  by_cases h : c <;> simp [h]

variable [DecidableEq Key] (key : Row → Key)

/-- Run a transaction with `pending` rows already inserted and nobody else around. -/
def execFrom : Txn Row Lock ε α → Tables Row → List Row → Except ε α × Tables Row
  | .done a, db, pending => (.ok a, { db with rows := db.rows ++ pending })
  | .fail e, db, _ => (.error e, db)
  | .lock _ next, db, pending => next.execFrom db pending
  | .read next, db, pending => (next (db.rows ++ pending)).execFrom db pending
  | .insert row next, db, pending =>
    if key (row db.ticket) ∈ (db.rows ++ pending).map key then
      (next false).execFrom { db with ticket := db.ticket + 1 } pending
    else
      (next true).execFrom { db with ticket := db.ticket + 1 } (pending ++ [row db.ticket])

/-- Run a transaction alone: committed on `done`, rolled back on `fail`. -/
def exec (t : Txn Row Lock ε α) (db : Tables Row) : Except ε α × Tables Row :=
  t.execFrom key db []

@[simp] theorem execFrom_done (a : α) (db : Tables Row) (pending : List Row) :
    (Txn.done a : Txn Row Lock ε α).execFrom key db pending =
      (.ok a, { db with rows := db.rows ++ pending }) := rfl

@[simp] theorem execFrom_fail (e : ε) (db : Tables Row) (pending : List Row) :
    (Txn.fail e : Txn Row Lock ε α).execFrom key db pending = (.error e, db) := rfl

@[simp] theorem execFrom_lock (k : Lock) (next : Txn Row Lock ε α) (db : Tables Row)
    (pending : List Row) :
    (Txn.lock k next).execFrom key db pending = next.execFrom key db pending := rfl

@[simp] theorem execFrom_read (next : List Row → Txn Row Lock ε α) (db : Tables Row)
    (pending : List Row) :
    (Txn.read next).execFrom key db pending =
      (next (db.rows ++ pending)).execFrom key db pending := rfl

theorem execFrom_insert (row : Nat → Row) (next : Bool → Txn Row Lock ε α) (db : Tables Row)
    (pending : List Row) :
    (Txn.insert row next).execFrom key db pending =
      if key (row db.ticket) ∈ (db.rows ++ pending).map key then
        (next false).execFrom key { db with ticket := db.ticket + 1 } pending
      else
        (next true).execFrom key { db with ticket := db.ticket + 1 } (pending ++ [row db.ticket]) :=
  rfl

/-- What is done with the result does not touch the tables. -/
theorem execFrom_map (f : α → β) (t : Txn Row Lock ε α) :
    ∀ (db : Tables Row) (pending : List Row),
      (t >>= fun a => pure (f a)).execFrom key db pending =
        ((t.execFrom key db pending).1.map f, (t.execFrom key db pending).2) := by
  induction t with
  | done a => exact fun _ _ => rfl
  | fail e => exact fun _ _ => rfl
  | lock k next ih => exact ih
  | read next ih => exact fun db pending => ih (db.rows ++ pending) db pending
  | insert row next ih =>
    intro db pending
    rw [insert_bind, execFrom_insert, execFrom_insert]
    split
    · exact ih false _ _
    · exact ih true _ _

/-- Running a transaction alone only ever adds rows, and none when it raises. -/
theorem execFrom_grows (t : Txn Row Lock ε α) : ∀ (db : Tables Row) (pending : List Row),
    (∃ more, (t.execFrom key db pending).2.rows = db.rows ++ more) ∧
      ∀ e, (t.execFrom key db pending).1 = .error e →
        (t.execFrom key db pending).2.rows = db.rows := by
  induction t with
  | done a => exact fun db pending => ⟨⟨pending, rfl⟩, by simp⟩
  | fail e => exact fun db pending => ⟨⟨[], by simp⟩, by simp⟩
  | lock k next ih => exact fun db pending => ih db pending
  | read next ih => exact fun db pending => ih (db.rows ++ pending) db pending
  | insert row next ih =>
    intro db pending
    rw [execFrom_insert]
    split
    · exact ih false { db with ticket := db.ticket + 1 } pending
    · exact ih true { db with ticket := db.ticket + 1 } (pending ++ [row db.ticket])

/-- The ticket counter never goes back, not even on a rollback. -/
theorem execFrom_ticket_le (t : Txn Row Lock ε α) : ∀ (db : Tables Row) (pending : List Row),
    db.ticket ≤ (t.execFrom key db pending).2.ticket := by
  induction t with
  | done a => exact fun _ _ => Nat.le_refl _
  | fail e => exact fun _ _ => Nat.le_refl _
  | lock k next ih => exact ih
  | read next ih => exact fun db pending => ih (db.rows ++ pending) db pending
  | insert row next ih =>
    intro db pending
    rw [execFrom_insert]
    split
    · exact Nat.le_of_succ_le (ih false { db with ticket := db.ticket + 1 } pending)
    · exact Nat.le_of_succ_le
        (ih true { db with ticket := db.ticket + 1 } (pending ++ [row db.ticket]))

theorem exec_error_rows {t : Txn Row Lock ε α} {db : Tables Row} {e : ε}
    (h : (t.exec key db).1 = .error e) : (t.exec key db).2.rows = db.rows :=
  (execFrom_grows key t db []).2 e h

end Txn

/-! ## Interleaved clients -/

/-- An open transaction: what is left of it and the rows it inserted so far. -/
structure Session (Row Lock ε α : Type) where
  prog : Txn Row Lock ε α
  pending : List Row

/-- The shared database and the clients on it. -/
structure World (Client Row Lock ε α : Type) where
  rows : List Row
  ticket : Nat
  owner : Lock → Option Client
  session : Client → Option (Session Row Lock ε α)

namespace World

variable {Client Row Lock ε α : Type}

/-- Fresh tables, no client connected. -/
def fresh : World Client Row Lock ε α := ⟨[], 1, fun _ => none, fun _ => none⟩

variable [DecidableEq Client]

/-- Client `c` continues as `s`. -/
def withSession (w : World Client Row Lock ε α) (c : Client) (s : Option (Session Row Lock ε α)) :
    World Client Row Lock ε α :=
  { w with session := Function.update w.session c s }

/-- The end of client `c`'s transaction: its locks are released. -/
def close (w : World Client Row Lock ε α) (c : Client) : World Client Row Lock ε α :=
  { w with
    owner := fun k => if w.owner k = some c then none else w.owner k
    session := Function.update w.session c none }

end World

section Interleaving

variable {Client Row Lock ε α Key : Type} [DecidableEq Client] [DecidableEq Lock]
  (key : Row → Key) (Starts : Txn Row Lock ε α → Prop)

/-- One statement of one client. -/
inductive Step : World Client Row Lock ε α → World Client Row Lock ε α → Prop
  | begin (w) (c : Client) (t : Txn Row Lock ε α) :
      w.session c = none → Starts t → Step w (w.withSession c (some ⟨t, []⟩))
  | lock (w) (c : Client) (k : Lock) (next) (pending) :
      w.session c = some ⟨.lock k next, pending⟩ → (w.owner k = none ∨ w.owner k = some c) →
      Step w { w.withSession c (some ⟨next, pending⟩) with
        owner := Function.update w.owner k (some c) }
  | read (w) (c : Client) (next) (pending) :
      w.session c = some ⟨.read next, pending⟩ →
      Step w (w.withSession c (some ⟨next (w.rows ++ pending), pending⟩))
  | conflict (w) (c : Client) (row) (next) (pending) :
      w.session c = some ⟨.insert row next, pending⟩ →
      key (row w.ticket) ∈ (w.rows ++ pending).map key →
      Step w { w.withSession c (some ⟨next false, pending⟩) with ticket := w.ticket + 1 }
  | insert (w) (c : Client) (row) (next) (pending) :
      w.session c = some ⟨.insert row next, pending⟩ →
      key (row w.ticket) ∉ (w.rows ++ pending).map key →
      -- another transaction's uncommitted row with this key makes the insert wait
      (∀ c' s, c' ≠ c → w.session c' = some s → key (row w.ticket) ∉ s.pending.map key) →
      Step w { w.withSession c (some ⟨next true, pending ++ [row w.ticket]⟩) with
        ticket := w.ticket + 1 }
  | commit (w) (c : Client) (a) (pending) :
      w.session c = some ⟨.done a, pending⟩ →
      Step w { w.close c with rows := w.rows ++ pending }
  | rollback (w) (c : Client) (s) :
      -- a raised exception, a failed statement, a deadlock victim or a lost connection
      w.session c = some s → Step w (w.close c)

/-- Every interleaving of every number of clients. -/
abbrev Steps : World Client Row Lock ε α → World Client Row Lock ε α → Prop :=
  Relation.ReflTransGen (Step key Starts)

variable {key Starts}

theorem Step.rows_prefix {w w' : World Client Row Lock ε α} (h : Step key Starts w w') :
    w.rows <+: w'.rows := by
  cases h with
  | commit c a pending _ => exact List.prefix_append _ _
  | begin => exact List.prefix_rfl
  | lock => exact List.prefix_rfl
  | read => exact List.prefix_rfl
  | conflict => exact List.prefix_rfl
  | insert => exact List.prefix_rfl
  | rollback => exact List.prefix_rfl

/-- Committed rows are never lost or reordered. -/
theorem Steps.rows_prefix {w w' : World Client Row Lock ε α} (h : Steps key Starts w w') :
    w.rows <+: w'.rows := by
  induction h with
  | refl => exact List.prefix_rfl
  | tail _ hstep ih => exact ih.trans hstep.rows_prefix

end Interleaving

/-! ## The rely-guarantee rule -/

/-- What a lock guards, the invariant of the committed rows, and what it means for a row to have been
stamped before ticket `t`. -/
structure Discipline (Row Lock : Type) where
  guards : Lock → Row → Prop
  Inv : List Row → Prop
  below : Nat → Row → Prop
  below_mono : ∀ {t t' : Nat} {r : Row}, t ≤ t' → below t r → below t' r

namespace Discipline

variable {Row Lock ε α Key : Type} (D : Discipline Row Lock) (key : Row → Key)

/-- What other clients may do to the committed rows while the locks in `held` are held. -/
def Env (held : List Lock) (rows rows' : List Row) : Prop :=
  ∃ extra, rows' = rows ++ extra ∧ (∀ r ∈ extra, ∀ k ∈ held, ¬ D.guards k r) ∧ D.Inv rows'

variable {D} in
theorem Env.trans {held : List Lock} {r₁ r₂ r₃ : List Row} (h₁ : D.Env held r₁ r₂)
    (h₂ : D.Env held r₂ r₃) : D.Env held r₁ r₃ := by
  obtain ⟨x, rfl, hx, _⟩ := h₁
  obtain ⟨y, rfl, hy, hinv⟩ := h₂
  refine ⟨x ++ y, List.append_assoc .., fun r hr => ?_, hinv⟩
  rcases List.mem_append.mp hr with hr | hr
  · exact hx r hr
  · exact hy r hr

variable {D} in
theorem env_refl {held : List Lock} {rows : List Row} (h : D.Inv rows) : D.Env held rows rows :=
  ⟨[], by simp, by simp, h⟩

/-- The verification condition of a transaction holding `held` with `pending` uncommitted rows. -/
def Safe : Txn Row Lock ε α → List Lock → List Row → List Row → Prop
  | .done _, held, pending, rows =>
    ∀ rows', D.Env held rows rows' →
      D.Inv (rows' ++ pending) ∧ ∀ r ∈ pending, ∀ k, D.guards k r → k ∈ held
  | .fail _, _, _, _ => True
  | .lock k next, held, pending, rows =>
    ∀ rows', D.Env held rows rows' → Safe next (k :: held) pending rows'
  | .read next, held, pending, rows =>
    ∀ rows', D.Env held rows rows' → Safe (next (rows' ++ pending)) held pending rows'
  | .insert row next, held, pending, rows =>
    ∀ rows' t, D.Env held rows rows' → (∀ r ∈ rows' ++ pending, D.below t r) →
      (key (row t) ∈ (rows' ++ pending).map key → Safe (next false) held pending rows') ∧
      (key (row t) ∉ (rows' ++ pending).map key →
        D.below (t + 1) (row t) ∧ Safe (next true) held (pending ++ [row t]) rows')

variable {D key}

/-- **The rule of a query.** The rest is safe with any answer the query may get. -/
theorem Safe.select {β : Type} {q : List Row → β} {f : β → Txn Row Lock ε α} {held : List Lock}
    {pending rows : List Row}
    (h : ∀ rows', D.Env held rows rows' →
      D.Safe key (f (q (rows' ++ pending))) held pending rows') :
    D.Safe key (Txn.select q >>= f) held pending rows := h

/-- **The rule of a lock.** The rest is safe with the lock held. -/
theorem Safe.advisoryLock {k : Lock} {f : Unit → Txn Row Lock ε α} {held : List Lock}
    {pending rows : List Row}
    (h : ∀ rows', D.Env held rows rows' → D.Safe key (f ()) (k :: held) pending rows') :
    D.Safe key (Txn.advisoryLock k >>= f) held pending rows := h

/-- What is done with the result after the last statement does not matter. -/
theorem Safe.map {β : Type} {f : α → β} {t : Txn Row Lock ε α} :
    ∀ {held : List Lock} {pending rows : List Row}, D.Safe key t held pending rows →
      D.Safe key (t >>= fun a => pure (f a)) held pending rows := by
  induction t with
  | done a => exact fun h => h
  | fail e => exact fun h => h
  | lock k next ih => exact fun h rows' henv => ih (h rows' henv)
  | read next ih => exact fun h rows' henv => ih _ (h rows' henv)
  | insert row next ih =>
    exact fun h rows' t henv hbelow =>
      ⟨fun hdup => ih false ((h rows' t henv hbelow).1 hdup),
        fun hnew => ⟨((h rows' t henv hbelow).2 hnew).1, ih true ((h rows' t henv hbelow).2 hnew).2⟩⟩

/-- Safety is stable under what the environment may do. -/
theorem Safe.env {t : Txn Row Lock ε α} {held : List Lock} {pending rows rows' : List Row}
    (h : D.Safe key t held pending rows) (henv : D.Env held rows rows') :
    D.Safe key t held pending rows' := by
  cases t with
  | done a => exact fun r hr => h r (henv.trans hr)
  | fail e => trivial
  | lock k next => exact fun r hr => h r (henv.trans hr)
  | read next => exact fun r hr => h r (henv.trans hr)
  | insert row next => exact fun r t hr => h r t (henv.trans hr)

end Discipline

/-! ## Soundness of the rule -/

namespace World

variable {Client Row Lock ε α Key : Type}

/-- The invariant of the interleaved system: the committed rows are good, keys are unique among the
committed rows and every transaction's own rows, and every open transaction is still safe with the
locks it owns. -/
structure Sound (D : Discipline Row Lock) (key : Row → Key) (w : World Client Row Lock ε α) :
    Prop where
  inv : D.Inv w.rows
  rowsBelow : ∀ r ∈ w.rows, D.below w.ticket r
  pendingBelow : ∀ c s, w.session c = some s → ∀ r ∈ s.pending, D.below w.ticket r
  unique : (w.rows.map key).Nodup
  pendingUnique : ∀ c s, w.session c = some s → ((w.rows ++ s.pending).map key).Nodup
  apart : ∀ c c' s s', c ≠ c' → w.session c = some s → w.session c' = some s' →
    ∀ r ∈ s.pending, ∀ r' ∈ s'.pending, key r ≠ key r'
  safe : ∀ c s, w.session c = some s →
    ∃ held, (∀ k ∈ held, w.owner k = some c) ∧ D.Safe key s.prog held s.pending w.rows

variable {D : Discipline Row Lock} {key : Row → Key} {w : World Client Row Lock ε α}

theorem sound_fresh (hinv : D.Inv []) : Sound D key (fresh : World Client Row Lock ε α) where
  inv := hinv
  rowsBelow := by simp [fresh]
  pendingBelow := by simp [fresh]
  unique := by simp [fresh]
  pendingUnique := by simp [fresh]
  apart := by simp [fresh]
  safe := by simp [fresh]

theorem Sound.apart_from (h : Sound D key w) {c : Client} {t : Session Row Lock ε α}
    (ht : w.session c = some t) (c' : Client) (s : Session Row Lock ε α) (hc : c' ≠ c)
    (hs : w.session c' = some s) : ∀ r ∈ t.pending, ∀ r' ∈ s.pending, key r ≠ key r' :=
  h.apart c c' t s (fun e => hc e.symm) ht hs

/-- What a session sees was stamped before now. -/
theorem Sound.seen_below (h : Sound D key w) {c : Client} {t : Session Row Lock ε α}
    (ht : w.session c = some t) : ∀ r ∈ w.rows ++ t.pending, D.below w.ticket r := fun r hr =>
  (List.mem_append.mp hr).elim (h.rowsBelow r) (h.pendingBelow c t ht r)

variable [DecidableEq Client]

/-- A client moves on to `s'` without committing: only its own session has to be checked. -/
theorem Sound.advance (h : Sound D key w) {c : Client} {s' : Session Row Lock ε α}
    {owner' : Lock → Option Client} {ticket' : Nat}
    (howner : ∀ c', c' ≠ c → ∀ k, w.owner k = some c' → owner' k = some c')
    (hticket : w.ticket ≤ ticket')
    (hbelow : ∀ r ∈ s'.pending, D.below ticket' r)
    (hunique : ((w.rows ++ s'.pending).map key).Nodup)
    (hapart : ∀ c' s, c' ≠ c → w.session c' = some s →
      ∀ r ∈ s'.pending, ∀ r' ∈ s.pending, key r ≠ key r')
    (hsafe : ∃ held, (∀ k ∈ held, owner' k = some c) ∧
      D.Safe key s'.prog held s'.pending w.rows) :
    Sound D key ⟨w.rows, ticket', owner', Function.update w.session c (some s')⟩ := by
  -- a session of the new world is `s'` at `c` and an old one elsewhere
  have hsession : ∀ c₁ s, Function.update w.session c (some s') c₁ = some s →
      (c₁ = c ∧ s = s') ∨ (c₁ ≠ c ∧ w.session c₁ = some s) := by
    intro c₁ s hs
    by_cases hc : c₁ = c
    · subst hc
      rw [Function.update_self] at hs
      exact Or.inl ⟨rfl, (Option.some.inj hs).symm⟩
    · rw [Function.update_of_ne hc] at hs
      exact Or.inr ⟨hc, hs⟩
  refine ⟨h.inv, fun r hr => D.below_mono hticket (h.rowsBelow r hr), ?_, h.unique, ?_, ?_, ?_⟩
  · intro c₁ s hs r hr
    rcases hsession c₁ s hs with ⟨rfl, rfl⟩ | ⟨_, hold⟩
    · exact hbelow r hr
    · exact D.below_mono hticket (h.pendingBelow c₁ s hold r hr)
  · intro c₁ s hs
    rcases hsession c₁ s hs with ⟨rfl, rfl⟩ | ⟨_, hold⟩
    · exact hunique
    · exact h.pendingUnique c₁ s hold
  · intro c₁ c₂ s₁ s₂ hne h₁ h₂ r hr r' hr'
    rcases hsession c₁ s₁ h₁ with ⟨rfl, rfl⟩ | ⟨hc₁, hold₁⟩ <;>
      rcases hsession c₂ s₂ h₂ with ⟨rfl, rfl⟩ | ⟨hc₂, hold₂⟩
    · exact absurd rfl hne
    · exact hapart c₂ s₂ hc₂ hold₂ r hr r' hr'
    · exact fun e => hapart c₁ s₁ hc₁ hold₁ r' hr' r hr e.symm
    · exact h.apart c₁ c₂ s₁ s₂ hne hold₁ hold₂ r hr r' hr'
  · intro c₁ s hs
    rcases hsession c₁ s hs with ⟨rfl, rfl⟩ | ⟨hc, hold⟩
    · exact hsafe
    · obtain ⟨held, hheld, hsafe'⟩ := h.safe c₁ s hold
      exact ⟨held, fun k hk => howner c₁ hc k (hheld k hk), hsafe'⟩

/-- A client's transaction ends: its locks go, the other sessions stay. -/
theorem close_session {c c₁ : Client} {s : Session Row Lock ε α}
    (hs : (w.close c).session c₁ = some s) : c₁ ≠ c ∧ w.session c₁ = some s := by
  by_cases hc : c₁ = c
  · subst hc
    simp [close] at hs
  · exact ⟨hc, by simpa [close, hc] using hs⟩

theorem close_owner {c c₁ : Client} {k : Lock} (hne : c₁ ≠ c) (h : w.owner k = some c₁) :
    (w.close c).owner k = some c₁ := by
  have : some c₁ ≠ some c := fun e => hne (Option.some.inj e)
  simp [close, h, this]

theorem Sound.rollback (h : Sound D key w) (c : Client) : Sound D key (w.close c) where
  inv := h.inv
  rowsBelow := h.rowsBelow
  pendingBelow c₁ s hs := h.pendingBelow c₁ s (close_session hs).2
  unique := h.unique
  pendingUnique c₁ s hs := h.pendingUnique c₁ s (close_session hs).2
  apart c₁ c₂ s₁ s₂ hne h₁ h₂ :=
    h.apart c₁ c₂ s₁ s₂ hne (close_session h₁).2 (close_session h₂).2
  safe c₁ s hs := by
    obtain ⟨hc, hold⟩ := close_session hs
    obtain ⟨held, hheld, hsafe⟩ := h.safe c₁ s hold
    exact ⟨held, fun k hk => close_owner hc (hheld k hk), hsafe⟩

/-- **The commit.** A safe transaction commits rows that keep the invariant, and every other open
transaction sees them as one of the environment moves it was checked against. -/
theorem Sound.commit (h : Sound D key w) {c : Client} {a : α} {pending : List Row}
    (hs : w.session c = some ⟨.done a, pending⟩) :
    Sound D key { w.close c with rows := w.rows ++ pending } := by
  obtain ⟨held, hheld, hsafe⟩ := h.safe c _ hs
  obtain ⟨hinv, hguard⟩ := hsafe w.rows (Discipline.env_refl h.inv)
  -- the committed rows are guarded by locks of `c` only, which no other client holds
  have henv : ∀ c₁ held₁, c₁ ≠ c → (∀ k ∈ held₁, w.owner k = some c₁) →
      D.Env held₁ w.rows (w.rows ++ pending) := by
    intro c₁ held₁ hne hheld₁
    refine ⟨pending, rfl, fun r hr k hk hguards => ?_, hinv⟩
    have hmine := hheld k (hguard r hr k hguards)
    rw [hheld₁ k hk] at hmine
    exact hne (Option.some.inj hmine)
  refine ⟨hinv, ?_, ?_, ?_, ?_, ?_, ?_⟩
  · intro r hr
    rcases List.mem_append.mp hr with hr | hr
    · exact h.rowsBelow r hr
    · exact h.pendingBelow c _ hs r hr
  · exact fun c₁ s hs₁ => h.pendingBelow c₁ s (close_session hs₁).2
  · exact h.pendingUnique c _ hs
  · intro c₁ s hs₁
    obtain ⟨hne, hold⟩ := close_session hs₁
    have hmine := h.pendingUnique c _ hs
    have htheirs := h.pendingUnique c₁ s hold
    simp only [List.map_append] at hmine htheirs ⊢
    rw [List.nodup_append] at htheirs ⊢
    refine ⟨hmine, htheirs.2.1, fun x hx y hy => ?_⟩
    rcases List.mem_append.mp hx with hx | hx
    · exact htheirs.2.2 x hx y hy
    · obtain ⟨r, hr, rfl⟩ := List.mem_map.mp hx
      obtain ⟨r', hr', rfl⟩ := List.mem_map.mp hy
      exact h.apart c c₁ _ s (fun e => hne e.symm) hs hold r hr r' hr'
  · exact fun c₁ c₂ s₁ s₂ hne h₁ h₂ =>
      h.apart c₁ c₂ s₁ s₂ hne (close_session h₁).2 (close_session h₂).2
  · intro c₁ s hs₁
    obtain ⟨hc, hold⟩ := close_session hs₁
    obtain ⟨held₁, hheld₁, hsafe₁⟩ := h.safe c₁ s hold
    exact ⟨held₁, fun k hk => close_owner hc (hheld₁ k hk),
      hsafe₁.env (henv c₁ held₁ hc hheld₁)⟩

/-- One statement of any client keeps the system sound, when every transaction that starts is
safe. -/
theorem Sound.step [DecidableEq Lock] {Starts : Txn Row Lock ε α → Prop}
    (hstarts : ∀ t, Starts t → ∀ rows, D.Inv rows → D.Safe key t [] [] rows)
    {w' : World Client Row Lock ε α} (h : Sound D key w) (hstep : Step key Starts w w') :
    Sound D key w' := by
  -- `advance` carries the other clients over; a case shows what the moving client may do next
  cases hstep with
  | begin c t hc ht =>
    exact h.advance (fun _ _ _ hk => hk) (Nat.le_refl _) (by simp) (by simpa using h.unique) (by simp)
      ⟨[], by simp, hstarts t ht w.rows h.inv⟩
  | lock c k next pending hs hfree =>
    obtain ⟨held, hheld, hsafe⟩ := h.safe c _ hs
    have hpending := h.pendingBelow c _ hs
    have hunique := h.pendingUnique c _ hs
    have hapart := h.apart_from hs
    refine h.advance ?_ (Nat.le_refl _) hpending hunique hapart
      ⟨k :: held, ?_, hsafe w.rows (Discipline.env_refl h.inv)⟩
    · intro c' hc' k' hk'
      by_cases hkk : k' = k
      · subst hkk
        rcases hfree with hfree | hfree <;> rw [hfree] at hk'
        · exact absurd hk' (by simp)
        · exact absurd (Option.some.inj hk').symm hc'
      · rw [Function.update_of_ne hkk]
        exact hk'
    · intro k' hk'
      by_cases hkk : k' = k
      · rw [hkk, Function.update_self]
      · rw [Function.update_of_ne hkk]
        exact hheld k' ((List.mem_cons.mp hk').resolve_left hkk)
  | read c next pending hs =>
    obtain ⟨held, hheld, hsafe⟩ := h.safe c _ hs
    have hpending := h.pendingBelow c _ hs
    have hunique := h.pendingUnique c _ hs
    have hapart := h.apart_from hs
    exact h.advance (fun _ _ _ hk => hk) (Nat.le_refl _) hpending hunique hapart
      ⟨held, hheld, hsafe w.rows (Discipline.env_refl h.inv)⟩
  | conflict c row next pending hs hdup =>
    obtain ⟨held, hheld, hsafe⟩ := h.safe c _ hs
    have hpending := h.pendingBelow c _ hs
    have hunique := h.pendingUnique c _ hs
    have hapart := h.apart_from hs
    have hbelow := h.seen_below hs
    exact h.advance (fun _ _ _ hk => hk) (Nat.le_succ _)
      (fun r hr => D.below_mono (Nat.le_succ _) (hpending r hr)) hunique hapart
      ⟨held, hheld, (hsafe w.rows w.ticket (Discipline.env_refl h.inv) hbelow).1 hdup⟩
  | insert c row next pending hs hnew hwait =>
    obtain ⟨held, hheld, hsafe⟩ := h.safe c _ hs
    have hpending := h.pendingBelow c _ hs
    have hunique := h.pendingUnique c _ hs
    have hapart := h.apart_from hs
    have hbelow := h.seen_below hs
    obtain ⟨hstamp, hnext⟩ := (hsafe w.rows w.ticket (Discipline.env_refl h.inv) hbelow).2 hnew
    refine h.advance (fun _ _ _ hk => hk) (Nat.le_succ _) ?_ ?_ ?_ ⟨held, hheld, hnext⟩
    · intro r hr
      rcases List.mem_append.mp hr with hr | hr
      · exact D.below_mono (Nat.le_succ _) (hpending r hr)
      · rw [List.mem_singleton.mp hr]
        exact hstamp
    · rw [← List.append_assoc, List.map_append, List.nodup_append]
      refine ⟨hunique, by simp, fun x hx y hy e => hnew ?_⟩
      rw [List.map_singleton, List.mem_singleton] at hy
      rwa [e, hy] at hx
    · intro c' s hc' hs' r hr r' hr' e
      rcases List.mem_append.mp hr with hr | hr
      · exact hapart c' s hc' hs' r hr r' hr' e
      · rw [List.mem_singleton.mp hr] at e
        exact hwait c' s hc' hs' (e ▸ List.mem_map_of_mem hr')
  | commit c a pending hs => exact h.commit hs
  | rollback c s hs => exact h.rollback c

/-- **Soundness.** Every world reached by interleaving safe transactions is sound. -/
theorem reachable_sound [DecidableEq Lock] {Starts : Txn Row Lock ε α → Prop}
    (hstarts : ∀ t, Starts t → ∀ rows, D.Inv rows → D.Safe key t [] [] rows)
    {w' : World Client Row Lock ε α} (h : Sound D key w) (hsteps : Steps key Starts w w') :
    Sound D key w' := by
  induction hsteps with
  | refl => exact h
  | tail _ hstep ih => exact ih.step hstarts hstep

/-! ## One client alone -/

/-- Only `c` is connected. -/
def Alone (w : World Client Row Lock ε α) (c : Client) : Prop :=
  (∀ c', c' ≠ c → w.session c' = none) ∧ ∀ k, w.owner k = none ∨ w.owner k = some c

/-- Nobody is connected and no lock is held. -/
def Idle (w : World Client Row Lock ε α) : Prop :=
  (∀ c, w.session c = none) ∧ ∀ k, w.owner k = none

omit [DecidableEq Client] in
theorem Idle.alone (h : w.Idle) (c : Client) : w.Alone c :=
  ⟨fun c' _ => h.1 c', fun k => Or.inl (h.2 k)⟩

theorem Alone.withSession {c : Client} (h : w.Alone c) (s : Option (Session Row Lock ε α)) :
    (w.withSession c s).Alone c :=
  ⟨fun c' hc' => by simpa [World.withSession, hc'] using h.1 c' hc', h.2⟩

theorem Alone.close {c : Client} (h : w.Alone c) : (w.close c).Idle := by
  refine ⟨fun c' => ?_, fun k => ?_⟩
  · by_cases hc : c' = c
    · simp [World.close, hc]
    · simpa [World.close, hc] using h.1 c' hc
  · rcases h.2 k with hk | hk <;> simp [World.close, hk]

theorem withSession_session (c : Client) (s : Option (Session Row Lock ε α)) :
    (w.withSession c s).session c = s := by
  simp [World.withSession]

variable (key) in
/-- The statements of a transaction that is alone, run to the end, compute `execFrom`. -/
theorem alone_computes_execFrom [DecidableEq Key] [DecidableEq Lock]
    {Starts : Txn Row Lock ε α → Prop} {c : Client} (t : Txn Row Lock ε α) :
    ∀ (w : World Client Row Lock ε α) (pending : List Row), w.Alone c →
      w.session c = some ⟨t, pending⟩ →
      ∃ w', Steps key Starts w w' ∧ w'.Idle ∧
        Tables.mk w'.rows w'.ticket = (t.execFrom key ⟨w.rows, w.ticket⟩ pending).2 := by
  induction t with
  | done a =>
    intro w pending halone hs
    exact ⟨{ w.close c with rows := w.rows ++ pending },
      Relation.ReflTransGen.single (.commit w c a pending hs), halone.close, rfl⟩
  | fail e =>
    intro w pending halone hs
    exact ⟨w.close c, Relation.ReflTransGen.single (.rollback w c _ hs), halone.close, rfl⟩
  | lock k next ih =>
    intro w pending halone hs
    obtain ⟨w', hsteps, hidle, hrows⟩ := ih
      { w.withSession c (some ⟨next, pending⟩) with
        owner := Function.update w.owner k (some c) } pending
      ⟨(halone.withSession _).1, fun k' => by
        by_cases hk : k' = k
        · simp [hk]
        · simpa [hk] using halone.2 k'⟩ (withSession_session c _)
    exact ⟨w', .head (.lock w c k next pending hs (halone.2 k)) hsteps, hidle, hrows⟩
  | read next ih =>
    intro w pending halone hs
    obtain ⟨w', hsteps, hidle, hrows⟩ := ih (w.rows ++ pending) _ pending
      (halone.withSession _) (withSession_session c _)
    exact ⟨w', .head (.read w c next pending hs) hsteps, hidle, hrows⟩
  | insert row next ih =>
    intro w pending halone hs
    rw [Txn.execFrom_insert]
    -- the unique key is checked against the committed rows and the client's own
    by_cases hdup : key (row w.ticket) ∈ (w.rows ++ pending).map key
    · obtain ⟨w', hsteps, hidle, hrows⟩ := ih false
        { w.withSession c (some ⟨next false, pending⟩) with ticket := w.ticket + 1 } pending
        (halone.withSession _) (withSession_session c _)
      refine ⟨w', .head (.conflict w c row next pending hs hdup) hsteps, hidle, ?_⟩
      rw [if_pos hdup]
      exact hrows
    -- nobody else is in a session, so no pending row can hold the key
    · have hnobody : ∀ c' s, c' ≠ c → w.session c' = some s →
          key (row w.ticket) ∉ s.pending.map key := by
        intro c' s hc' hs'
        rw [halone.1 c' hc'] at hs'
        exact absurd hs' (by simp)
      obtain ⟨w', hsteps, hidle, hrows⟩ := ih true
        { w.withSession c (some ⟨next true, pending ++ [row w.ticket]⟩) with
          ticket := w.ticket + 1 } (pending ++ [row w.ticket])
        (halone.withSession _) (withSession_session c _)
      refine ⟨w', .head (.insert w c row next pending hs hdup hnobody) hsteps, hidle, ?_⟩
      rw [if_neg hdup]
      exact hrows

variable (key) in
/-- **Running a transaction alone is one interleaving.**  The sequential meaning `exec` is reached by
the statements of a single client on an idle database. -/
theorem exec_is_interleaving [DecidableEq Key] [DecidableEq Lock]
    {Starts : Txn Row Lock ε α → Prop} {t : Txn Row Lock ε α} (ht : Starts t) (c : Client)
    (hidle : w.Idle) :
    ∃ w', Steps key Starts w w' ∧ w'.Idle ∧
      Tables.mk w'.rows w'.ticket = (t.exec key ⟨w.rows, w.ticket⟩).2 := by
  have halone : (w.withSession c (some ⟨t, []⟩)).Alone c := (hidle.alone c).withSession _
  obtain ⟨w', hsteps, hidle', hrows⟩ :=
    alone_computes_execFrom key t _ [] halone (withSession_session c _)
  exact ⟨w', .head (.begin w c t (hidle.1 c) ht) hsteps, hidle', hrows⟩

end World

/-! ## Schedules -/

namespace World

section Schedule

variable {Client Row Lock ε α Key : Type} [Fintype Client] [DecidableEq Client] [DecidableEq Lock]
  [DecidableEq Key] (key : Row → Key)

/-- The next statement of client `c`; a client that waits for a lock or for a row of another one, or has no
transaction, does nothing. -/
def advance (w : World Client Row Lock ε α) (c : Client) : World Client Row Lock ε α :=
  match w.session c with
  | none => w
  | some ⟨.done _, pending⟩ => { w.close c with rows := w.rows ++ pending }
  | some ⟨.fail _, _⟩ => w.close c
  | some ⟨.lock k next, pending⟩ =>
    if w.owner k = none ∨ w.owner k = some c then
      { w.withSession c (some ⟨next, pending⟩) with owner := Function.update w.owner k (some c) }
    else w
  | some ⟨.read next, pending⟩ => w.withSession c (some ⟨next (w.rows ++ pending), pending⟩)
  | some ⟨.insert row next, pending⟩ =>
    if key (row w.ticket) ∈ (w.rows ++ pending).map key then
      { w.withSession c (some ⟨next false, pending⟩) with ticket := w.ticket + 1 }
    else if ∀ c', c' ≠ c →
        (w.session c').all (fun s => key (row w.ticket) ∉ s.pending.map key) = true then
      { w.withSession c (some ⟨next true, pending ++ [row w.ticket]⟩) with ticket := w.ticket + 1 }
    else w

/-- The clients take turns: one begins a transaction or executes a statement. -/
def turn (w : World Client Row Lock ε α) : Client × Option (Txn Row Lock ε α) →
    World Client Row Lock ε α
  | (c, some t) => if (w.session c).isNone then w.withSession c (some ⟨t, []⟩) else w
  | (c, none) => w.advance key c

variable {key} {Starts : Txn Row Lock ε α → Prop}

theorem advance_steps (w : World Client Row Lock ε α) (c : Client) :
    Steps key Starts w (w.advance key c) := by
  unfold advance
  split
  · exact .refl
  · rename_i hs
    exact .single (.commit w c _ _ hs)
  · rename_i hs
    exact .single (.rollback w c _ hs)
  · rename_i hs
    split
    · rename_i hfree
      exact .single (.lock w c _ _ _ hs hfree)
    · exact .refl
  · rename_i hs
    exact .single (.read w c _ _ hs)
  · rename_i hs
    split
    · rename_i hconflict
      exact .single (.conflict w c _ _ _ hs hconflict)
    · rename_i hnew
      split
      · rename_i hnobody
        refine .single (.insert w c _ _ _ hs hnew fun c' s hc hs' => ?_)
        exact of_decide_eq_true ((Option.all_eq_true _ _).mp (hnobody c' hc) s hs')
      · exact .refl

/-- **A schedule is an interleaving.** -/
theorem schedule_steps {turns : List (Client × Option (Txn Row Lock ε α))}
    (h : ∀ p ∈ turns, ∀ t ∈ p.2, Starts t) (w : World Client Row Lock ε α) :
    Steps key Starts w (turns.foldl (turn key) w) := by
  induction turns generalizing w with
  | nil => exact .refl
  | cons p turns ih =>
    refine Relation.ReflTransGen.trans ?_ (ih (fun q hq => h q (List.mem_cons_of_mem p hq)) _)
    obtain ⟨c, statement⟩ := p
    cases statement with
    | none => exact advance_steps w c
    | some t =>
      show Steps key Starts w (if (w.session c).isNone then _ else _)
      split
      · rename_i hidle
        exact .single (.begin w c t (Option.isNone_iff_eq_none.mp hidle)
          (h _ List.mem_cons_self t rfl))
      · exact .refl

end Schedule

end World

end MarketPilot.Foundation
