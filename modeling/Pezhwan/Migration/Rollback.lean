import Pezhwan.Migration.Passes
import Mathlib.Logic.Function.Basic

-- An apply pass, a rollback of the same tool, and users who change their own
-- secret, each taking one operation on the database at a time.
namespace Pezhwan.Migration
open Numeric Atomic

structure Row where
  rowId : ℕ
  userId : ℕ
  secret : Stored
  deriving DecidableEq

inductive Rollback where
  | migrateMfaSecrets
  | runRollback
  | standalone
  deriving DecidableEq

structure Plan where
  aead : Aead
  key : Key
  rollback : Rollback
  batchSize : ℕ

def Rollback.tool : Rollback → Tool
  | .migrateMfaSecrets => .migrateMfaSecrets
  | .runRollback | .standalone => .mfaSecretsEncryption

inductive Phase where
  | idle
  | restoring (read : ℕ) (todo : List Row)
  | removing (read : ℕ) (todo : List Row) (row : Row) (modified : Bool)
  | completed
  | failed
  deriving DecidableEq

def Phase.todo : Phase → List Row
  | .restoring _ todo | .removing _ todo _ _ => todo
  | .idle | .completed | .failed => []

def Phase.Running : Phase → Prop
  | .restoring _ _ | .removing _ _ _ _ => True
  | .idle | .completed | .failed => False

instance : ∀ phase : Phase, Decidable phase.Running
  | .restoring _ _ | .removing _ _ _ _ => .isTrue trivial
  | .idle | .completed | .failed => .isFalse id

-- Beside the two collections and what the pass and the rollback hold: the
-- values each record has had, which records the user set after the pass read
-- them, and what the pass replaced by what.
structure Accounts where
  users : ℕ → Option Stored
  rows : List Row := []
  nextRow : ℕ := 0
  visited : List ℕ := []
  fetched : List (ℕ × Stored) := []
  holding : Option (ℕ × Stored × Stored) := none
  phase : Phase := .idle
  past : ℕ → List Stored
  changed : ℕ → Bool := fun _ => false
  migrated : ℕ → Option (Stored × Stored) := fun _ => none

def started (users : ℕ → Option Stored) : Accounts := { users, past := fun id => (users id).toList }

inductive Event where
  | set (id : ℕ) (value : Option Stored)
  | fetch (id : ℕ)
  | next (draws : Draws)
  | write
  | rollback
  | restore
  | remove
  | finish

namespace Accounts

def put (s : Accounts) (id : ℕ) (value : Option Stored) : Accounts :=
  { s with
    users := Function.update s.users id value
    past := Function.update s.past id (value.toList ++ s.past id) }

-- A user enrols again, with a secret that is new, or disables the second factor.
def set (s : Accounts) (id : ℕ) (value : Option Stored) : Option Accounts :=
  if ∀ secret ∈ value, secret ∉ s.past id then
    some { s.put id value with changed := Function.update s.changed id true }
  else none

def fetch (s : Accounts) (id : ℕ) : Option Accounts :=
  if id ∈ s.visited then none
  else
    (s.users id).map fun stored =>
      { s with
        visited := id :: s.visited
        fetched := s.fetched ++ [(id,stored)]
        changed := Function.update s.changed id false }

def upsert (rowId userId : ℕ) (secret : Stored) : List Row → List Row
  | [] => [⟨rowId,userId,secret⟩]
  | row :: rest => if row.userId = userId then { row with secret } :: rest else row :: upsert rowId userId secret rest

def backup (s : Accounts) (userId : ℕ) (secret : Stored) : Tool → Accounts
  | .migrateMfaSecrets => { s with rows := s.rows ++ [⟨s.nextRow,userId,secret⟩],nextRow := s.nextRow + 1 }
  | .mfaSecretsEncryption => { s with rows := upsert s.nextRow userId secret s.rows,nextRow := s.nextRow + 1 }

def next (plan : Plan) (s : Accounts) (draws : Draws) : Option Accounts :=
  match s.holding,s.fetched with
  | none,(id,stored) :: rest =>
    match plan.rollback.tool.upgraded plan.aead plan.key draws stored with
    | none => some { s with fetched := rest }
    | some upgraded =>
      some { s.backup id stored plan.rollback.tool with
        fetched := rest
        holding := some (id,stored,upgraded) }
  | _,_ => none

-- The update finds the record only if it still holds what was read.
def write (s : Accounts) : Option Accounts :=
  s.holding.map fun (id,stored,upgraded) =>
    if s.users id = some stored then
      { s.put id (some upgraded) with
        holding := none
        migrated := Function.update s.migrated id (some (stored,upgraded)) }
    else { s with holding := none }

-- No limit is a limit of zero.
def batch (plan : Plan) (s : Accounts) : List Row :=
  match plan.rollback with
  | .migrateMfaSecrets => s.rows
  | .runRollback | .standalone => if plan.batchSize = 0 then s.rows else s.rows.take plan.batchSize

def startRollback (plan : Plan) (s : Accounts) : Option Accounts :=
  if s.phase = .idle then some { s with phase := .restoring (s.batch plan).length (s.batch plan) } else none

-- The restoring update names the record only.
def restore (s : Accounts) : Option Accounts :=
  match s.phase with
  | .restoring read (row :: todo) =>
    some { s.put row.userId (some row.secret) with
      phase := .removing read todo row (s.users row.userId != some row.secret) }
  | _ => none

def removes (matched modified : Bool) : Rollback → Bool
  | .migrateMfaSecrets => true
  | .runRollback => modified
  | .standalone => modified || matched

def remove (plan : Plan) (s : Accounts) : Option Accounts :=
  match s.phase with
  | .removing read todo row modified =>
    some { s with
      rows := if removes true modified plan.rollback then s.rows.filter (·.rowId ≠ row.rowId) else s.rows
      phase := .restoring read todo }
  | _ => none

-- A full batch is followed by another, but a cursor that has been read takes no
-- limit any more and throws.
def completes (batchSize read : ℕ) : Rollback → Bool
  | .migrateMfaSecrets => true
  | .runRollback | .standalone => read = 0 || read < batchSize

def finish (plan : Plan) (s : Accounts) : Option Accounts :=
  match s.phase with
  | .restoring read [] => some { s with phase := if completes plan.batchSize read plan.rollback then .completed else .failed }
  | _ => none

def step (plan : Plan) (s : Accounts) : Event → Option Accounts
  | .set id value => s.set id value
  | .fetch id => s.fetch id
  | .next draws => s.next plan draws
  | .write => s.write
  | .rollback => s.startRollback plan
  | .restore => s.restore
  | .remove => s.remove plan
  | .finish => s.finish plan

end Accounts

end Pezhwan.Migration
