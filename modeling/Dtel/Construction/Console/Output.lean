/-
This file models the functions of the console object.
-/
import Dtel.Construction.Duktape.Context

namespace Dtel.Console

variable {State Error Arg : Type}

/-- A worker overrides these two functions. -/
structure ConsoleWorker (State : Type) where
  clear : State → State
  output (outputtype message : String) : State → State

/-- A handler has no worker until `setWorker` is called. -/
structure ConsoleHandler (State : Type) where
  worker : Option (ConsoleWorker State)

/-- This is `r_console_Clear`. -/
def clear (handler : ConsoleHandler State) : EStateM Error State Unit :=
  match handler.worker with
  | some worker => modify worker.clear
  | none => return

/-- The loop of `r_console_Output` looks at the text so far, and then converts the next argument with
`duk_to_string`, which may run script and throw. -/
def buildMessage (toString : Arg → EStateM Error State String) (ss : String) : List Arg → EStateM Error State String
  | [] => return ss
  | arg :: args => do
      let ss := if ss = "" then ss else ss ++ " "
      let message ← toString arg
      buildMessage toString (ss ++ Duktape.cString message) args

/-- This is `r_console_Output`, which converts nothing when there is no worker. -/
def output (toString : Arg → EStateM Error State String) (handler : ConsoleHandler State) (outputtype : String)
    (args : List Arg) : EStateM Error State Unit :=
  match handler.worker with
  | some worker => do
      let message ← buildMessage toString "" args
      modify (worker.output outputtype message)
  | none => return

section Methods

variable (toString : Arg → EStateM Error State String) (handler : ConsoleHandler State) (args : List Arg)

def log : EStateM Error State Unit := output toString handler "log" args
def debug : EStateM Error State Unit := output toString handler "debug" args
def error : EStateM Error State Unit := output toString handler "error" args
def info : EStateM Error State Unit := output toString handler "info" args
def warn : EStateM Error State Unit := output toString handler "warn" args

end Methods

/-- These methods of the console object take any arguments. -/
inductive Method where
  | log
  | debug
  | error
  | info
  | warn
deriving DecidableEq

def Method.call (toString : Arg → EStateM Error State String) (handler : ConsoleHandler State) (args : List Arg) :
    Method → EStateM Error State Unit
  | .log => Console.log toString handler args
  | .debug => Console.debug toString handler args
  | .error => Console.error toString handler args
  | .info => Console.info toString handler args
  | .warn => Console.warn toString handler args

def Method.outputtype : Method → String
  | .log => "log"
  | .debug => "debug"
  | .error => "error"
  | .info => "info"
  | .warn => "warn"

end Dtel.Console
