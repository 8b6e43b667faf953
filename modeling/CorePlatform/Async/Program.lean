/-! Bodies of asynchronous functions as trees of atomic commands. A body returns,
throws, or awaits one command and continues with its response; a rejected command
reaches the continuation as an error, so that the body may catch it. The trees are
first order in the commands: what a command does is left to a semantics. -/
namespace Async

/-- Atomic commands, each with the type of its response. -/
structure Interface where
  Cmd : Type
  Resp : Cmd → Type

inductive Prog (I : Interface) (ε α : Type) where
  | done (r : Except ε α)
  | await (c : I.Cmd) (k : Except ε (I.Resp c) → Prog I ε α)

variable {I : Interface} {ε α β : Type}

namespace Prog

/-- Continue every outcome of `p`, the thrown ones included. Sequencing and
catching are its two uses. -/
def graft : Prog I ε α → (Except ε α → Prog I ε β) → Prog I ε β
  | .done r, f => f r
  | .await c k, f => .await c (fun r => (k r).graft f)

def bind (p : Prog I ε α) (f : α → Prog I ε β) : Prog I ε β :=
  p.graft fun
    | .ok a => f a
    | .error e => .done (.error e)

def tryCatch (p : Prog I ε α) (f : ε → Prog I ε α) : Prog I ε α :=
  p.graft fun
    | .ok a => .done (.ok a)
    | .error e => f e

instance : Monad (Prog I ε) where
  pure a := .done (.ok a)
  bind := Prog.bind

instance : MonadExceptOf ε (Prog I ε) where
  throw e := .done (.error e)
  tryCatch := Prog.tryCatch

/-- Await one command and return its response. -/
def perform (c : I.Cmd) : Prog I ε (I.Resp c) := .await c .done

/-- `for (const x of xs) await f(x)` -/
def forEach {ι : Type} (f : ι → Prog I ε Unit) : List ι → Prog I ε Unit
  | [] => pure ()
  | x :: xs => do
    f x
    forEach f xs

@[simp] theorem pure_eq (a : α) : (pure a : Prog I ε α) = .done (.ok a) := rfl

@[simp] theorem throw_eq (e : ε) : (throw e : Prog I ε α) = .done (.error e) := rfl

@[simp] theorem bind_ok (a : α) (f : α → Prog I ε β) :
    (Prog.done (.ok a) : Prog I ε α) >>= f = f a := rfl

@[simp] theorem bind_error (e : ε) (f : α → Prog I ε β) :
    (Prog.done (.error e) : Prog I ε α) >>= f = .done (.error e) := rfl

@[simp] theorem bind_await (c : I.Cmd) (k : Except ε (I.Resp c) → Prog I ε α)
    (f : α → Prog I ε β) : (Prog.await c k >>= f) = .await c fun r => k r >>= f := rfl

@[simp] theorem catch_ok (a : α) (f : ε → Prog I ε α) :
    (tryCatch (Prog.done (.ok a)) f : Prog I ε α) = .done (.ok a) := rfl

@[simp] theorem catch_error (e : ε) (f : ε → Prog I ε α) :
    (tryCatch (Prog.done (.error e)) f : Prog I ε α) = f e := rfl

@[simp] theorem catch_await (c : I.Cmd) (k : Except ε (I.Resp c) → Prog I ε α)
    (f : ε → Prog I ε α) :
    (tryCatch (Prog.await c k) f : Prog I ε α) = .await c fun r => tryCatch (k r) f := rfl

end Prog
end Async
