import ScopeMachine.Error

/-! # Events

What building, registering and running modules reports about itself. Events are plain data, and
`Event.text` gives the line that each is written as: its level, what happened, and the details. -/

namespace ScopeMachine

/-- Something that happened. -/
inductive Event where
  /-- A module was verified and finished. -/
  | verified (id : ModuleId) (vtypes regs procs : Nat)
  /-- A module was registered. -/
  | registered (id : ModuleId)
  /-- A module was compiled by the interpreter. -/
  | compiled (id : ModuleId) (procs : Nat)
  /-- A registered module got an executable form. -/
  | unpacked (id : ModuleId) (backend : String)
  /-- A registered module lost its executable form. -/
  | packed (id : ModuleId)
  /-- A registered module was destroyed. -/
  | destroyed (id : ModuleId)
  /-- The entry of a destroyed module was removed. -/
  | erased (id : ModuleId)
  /-- A procedure was entered; `depth` activations were open before. -/
  | entered (proc : ProcId) (depth : Nat)
  /-- A traced procedure was entered; `depth` activations were open before. -/
  | enteredTraced (module : ModuleId) (proc : ProcId) (depth : Nat)
  /-- A traced procedure was left; `depth` activations are open after. -/
  | leftTraced (module : ModuleId) (proc : ProcId) (depth : Nat)
  /-- A call ended in a fault. -/
  | faulted (module : ModuleId) (proc : ProcId) (fault : ExecFault)
deriving DecidableEq

/-! ### Levels -/

/-- How much attention an event asks for, the least first. -/
inductive EventLevel where
  /-- Of interest to someone who follows every call. -/
  | trace
  /-- Of interest to someone who follows the life of modules. -/
  | debug
  /-- Of interest to everyone. -/
  | warn
deriving DecidableEq

namespace EventLevel

/-- The name of a level. -/
def name : EventLevel → String
  | trace => "TRACE"
  | debug => "DEBUG"
  | warn => "WARN"

/-- The position of a level in the order of attention. -/
def rank : EventLevel → Nat
  | trace => 0
  | debug => 1
  | warn => 2

end EventLevel

namespace Event

/-- The level of an event. -/
def level : Event → EventLevel
  | entered .. => .trace
  | faulted .. => .warn
  | _ => .debug

/-- What happened, with the details. -/
def details : Event → String
  | verified id vtypes regs procs =>
      "module verified id=" ++ id.text ++ " vtypes=" ++ vtypes.repr ++ " regs=" ++ regs.repr
        ++ " procs=" ++ procs.repr
  | registered id => "registered module=" ++ id.text
  | compiled id procs => "compiled module=" ++ id.text ++ " procs=" ++ procs.repr
  | unpacked id backend => "unpacked module=" ++ id.text ++ " backend=" ++ backend
  | packed id => "packed module=" ++ id.text
  | destroyed id => "destroyed module=" ++ id.text
  | erased id => "erased module=" ++ id.text
  | entered proc depth => "enter proc=" ++ proc.text ++ " depth=" ++ depth.repr
  | enteredTraced module proc depth =>
      "enter module=" ++ module.text ++ " proc=" ++ proc.text ++ " depth=" ++ depth.repr
  | leftTraced module proc depth =>
      "exit module=" ++ module.text ++ " proc=" ++ proc.text ++ " depth=" ++ depth.repr
  | faulted module proc fault =>
      fault.message ++ " module=" ++ module.text ++ " proc=" ++ proc.text ++ " code="
        ++ fault.code.toInt.repr

/-- The line that an event is written as. -/
def text (event : Event) : String := event.level.name ++ " " ++ event.details

end Event

end ScopeMachine
