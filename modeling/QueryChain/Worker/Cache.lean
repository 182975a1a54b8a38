import QueryChain.Worker.Meter

/-!
# One compiler per worker

A worker builds its compiler on first use and keeps it. The list of extensions belongs to the
pool: it can be installed once, and the first attempt to build a compiler closes it.

## Main definitions

* `Pool`, `Pool.install`, `Pool.close`: the extensions of a pool
* `Worker`: the compiler of a worker and its counters
* `Worker.countBuild`, `Pool.countBuild`, `Worker.fill`: the parts of a build
* `Worker.acquire`: the compiler of a worker, built if need be
-/

namespace QueryChain

/-- What all workers share. -/
structure Pool where
  /-- The extensions of every compiler; none while the list is open. -/
  extensions : Option (List OperationSet)
  totalBuilds : Nat

namespace Pool

/-- A pool in which nothing has been built or installed. -/
def fresh : Pool :=
  ⟨none, 0⟩

/-- Installs extensions, unless the list is closed. -/
def install (p : Pool) (sets : List OperationSet) : Except CompileError Pool :=
  match p.extensions with
  | some _ => .error .registryClosed
  | none => .ok { p with extensions := some sets }

/-- Closes the list of extensions, as an empty one if none was installed. -/
def close (p : Pool) : Pool :=
  { p with extensions := some (p.extensions.getD []) }

/-- The extensions in force. -/
def extensionsInForce (p : Pool) : List OperationSet :=
  p.extensions.getD []

/-- Counts a build. -/
def countBuild (p : Pool) : Pool :=
  { p with totalBuilds := p.totalBuilds + 1 }

end Pool

/-- A thread of execution with a compiler of its own. -/
structure Worker where
  meter : Meter
  /-- The compiler that is kept. -/
  compiler : Option Compiler
  builds : Nat

namespace Worker

/-- A worker that has done nothing. -/
def fresh : Worker :=
  ⟨.zero, none, 0⟩

/-- Reports events. -/
def report (w : Worker) (events : List Event) : Worker :=
  { w with meter := w.meter.recordAll events }

/-- Counts a build. -/
def countBuild (w : Worker) : Worker :=
  { w with builds := w.builds + 1 }

/-- Keeps a compiler, unless one is kept already. -/
def fill (w : Worker) (c : Compiler) : Worker :=
  { w with compiler := some (w.compiler.getD c) }

/-- The compiler of the worker. If there is none, the extensions are closed and one is built; a
failed build leaves no other trace. -/
def acquire (w : Worker) (p : Pool) : Except CompileError Compiler × Worker × Pool :=
  match w.compiler with
  | some c => (.ok c, w, p)
  | none =>
    match Compiler.build p.close.extensionsInForce Pass.standard with
    | .error e => (.error e, w, p.close)
    | .ok c => (.ok c, ((w.report [.compilerBuilt]).countBuild).fill c, p.close.countBuild)

end Worker

end QueryChain
