import Kryvaracode.Runs

-- A session collects changes of a store and commits them together.
namespace Transactions
open Runs
universe u v
variable {σ : Type u} {ε : Type v}

-- A commit that fails loses what is pending, and every later one fails as well
-- until the session is rolled back.
structure Session (σ : Type u) where
  committed : σ
  pending : σ
  needsRollback : Bool

-- What the store answers to a commit, or what is asked of it.
inductive Op (σ : Type u) (ε : Type v) where
  | change (next : σ → σ)
  | commit (answer : Except ε Unit)

namespace Session

def opened (store : σ) : Session σ := ⟨store,store,false⟩

def change (session : Session σ) (next : σ → σ) : Session σ := {session with pending := next session.pending}

def commit (spoiled : ε) (session : Session σ) (answer : Except ε Unit) : Session σ × Except ε Unit :=
  if session.needsRollback then (session,.error spoiled)
  else match answer with
    | .ok () => ({session with committed := session.pending},.ok ())
    | .error exc => (⟨session.committed,session.committed,true⟩,.error exc)

def step (spoiled : ε) (session : Session σ) : Op σ ε → Session σ
  | .change next => session.change next
  | .commit answer => (session.commit spoiled answer).1

end Session

section Commits
variable (spoiled : ε) (session : Session σ)

theorem commit_ok (usable : session.needsRollback = false) :
    session.commit spoiled (.ok ()) = ({session with committed := session.pending},.ok ()) := by
  rw [Session.commit,usable]
  rfl

theorem commit_failed (usable : session.needsRollback = false) (exc : ε) :
    session.commit spoiled (.error exc) = (⟨session.committed,session.committed,true⟩,.error exc) := by
  rw [Session.commit,usable]
  rfl

theorem commit_spoiled (broken : session.needsRollback = true) (answer : Except ε Unit) :
    session.commit spoiled answer = (session,.error spoiled) := if_pos broken

theorem step_spoiled (op : Op σ ε) (broken : session.needsRollback = true) :
    (session.step spoiled op).needsRollback = true ∧ (session.step spoiled op).committed = session.committed := by
  cases op with
  | change next => exact ⟨broken,rfl⟩
  | commit answer =>
      rw [Session.step,commit_spoiled spoiled session broken]
      exact ⟨broken,rfl⟩

-- Nothing is committed on a session that is not rolled back.
theorem run_spoiled (ops : List (Op σ ε)) (broken : session.needsRollback = true) :
    (run (Session.step spoiled) session ops).committed = session.committed := by
  induction ops generalizing session with
  | nil => rfl
  | cons op rest ih =>
      obtain ⟨still,same⟩ := step_spoiled spoiled session op broken
      rw [run_cons,ih _ still,same]

end Commits

end Transactions
