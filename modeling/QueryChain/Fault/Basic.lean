import QueryChain.Compile.Error
import QueryChain.Fault.Code

/-!
# Faults

What a host sees of a failure, whether it comes from a compilation, the network or a server: a code,
an origin, a message and the identifier under which both ends log it.

## Main definitions

* `Origin`: where a fault arose
* `Fault`: faults, with what caused them
* `CompileError.code`, `Fault.ofCompile`: the fault of a compilation error
-/

namespace QueryChain

/-- Where a fault arose. -/
inductive Origin where
  | registry
  | passes
  | evaluate
  | compile
  | cache
  | network
  | server
deriving DecidableEq, Repr

namespace Origin

/-- The name of an origin. -/
def name : Origin → String
  | registry => "Registry"
  | passes => "Rewrite"
  | evaluate => "Evaluate"
  | compile => "Compile"
  | cache => "Cache"
  | network => "Network"
  | server => "Server"

/-- The origin of errors of a stage. -/
def ofStage : Stage → Origin
  | .registry => registry
  | .passes => passes
  | .evaluate => evaluate
  | .compile => compile
  | .cache => cache

end Origin

/-- What a fault was caused by. -/
inductive Cause where
  | compile (e : CompileError)
  | other (message : String)

/-- The text of a cause. -/
def Cause.message : Cause → String
  | compile e => e.message
  | other s => s

/-- A failure as a host sees it. -/
structure Fault where
  code : FaultCode
  origin : Origin
  message : String
  /-- Links the fault to the logs of both ends. -/
  traceId : String
  cause : Option Cause

namespace Fault

/-- The group of the fault's code. -/
def group (f : Fault) : FaultGroup :=
  f.code.group

/-- Whether the fault is one of compilation. -/
def isCompile (f : Fault) : Bool :=
  f.group == .compile

/-- The compilation error behind the fault. -/
def compileError? (f : Fault) : Option CompileError :=
  match f.cause with
  | some (.compile e) => some e
  | _ => none

end Fault

/-- The number of an error within the group of compilation faults. Defects of the compiler have
none. -/
def CompileError.number? : CompileError → Option UInt16
  | unsupported _ => some 1
  | invalidArguments _ _ => some 2
  | misplacedTerminal _ _ => some 3
  | unorderedThenBy => some 4
  | evaluation _ _ => some 5
  | registry _ => some 6
  | registryClosed => some 7
  | noFixedPoint _ _ => none

/-- The code of an error. -/
def CompileError.code (e : CompileError) : FaultCode :=
  match e.number? with
  | some n => if e.isInvariantViolation then .internal else .pack .compile n
  | none => .internal

/-- The fault of a compilation error. -/
def Fault.ofCompile (traceId : String) (e : CompileError) : Fault where
  code := e.code
  origin := .ofStage e.stage
  message := e.message
  traceId := traceId
  cause := some (.compile e)

end QueryChain
