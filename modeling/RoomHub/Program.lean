import RoomHub.World

/-!
# Programs over the world

A `Program` is a finite tree of operations: it has ended with a result, or it takes one
step and goes on as the answer says. What several steps do in a row is a program; whoever
runs it decides whether other programs step in between.
-/

namespace RoomHub

/-- A sequence of operations, each chosen by the answers before it. -/
inductive Program (α : Type) where
  | done (result : α)
  | step (op : Operation) (next : op.Answer → Program α)

namespace Program

variable {α β : Type}

/-- Goes on with another program once the result is known. -/
def bind : Program α → (α → Program β) → Program β
  | done a, k => k a
  | step op next, k => step op fun answer => (next answer).bind k

instance : Monad Program where
  pure := done
  bind := bind

/-- The program of one step. -/
def perform (op : Operation) : Program op.Answer := step op done

/-- Runs a program without interruption. -/
def run : Program α → World → α × World
  | done a, w => (a, w)
  | step op next, w =>
    let (answer, w') := w.perform op
    (next answer).run w'

@[simp] theorem run_done (a : α) (w : World) : (done a).run w = (a, w) := rfl

@[simp] theorem run_step (op : Operation) (next : op.Answer → Program α) (w : World) :
    (step op next).run w = (next (w.perform op).1).run (w.perform op).2 := rfl

/-- Running two programs in a row is running the second where the first ended. -/
theorem run_bind (p : Program α) (k : α → Program β) (w : World) :
    (p.bind k).run w = (k (p.run w).1).run (p.run w).2 := by
  induction p generalizing w with
  | done a => rfl
  | step op next ih => simp only [bind, run_step, ih]

end Program

end RoomHub
