import Southbound.Failure

/-!
# Checks on requests

What is checked of a request before anything is done: that a flow is in the
table its path names, and that a batch has members.
-/

namespace Southbound

/-- Why a request is refused as it stands. -/
inductive RequestFault where
  /-- The path and the flow name different tables. -/
  | invalidTableId (path payload : TableId)
  | emptyBatch (operation : String)
deriving DecidableEq, Repr

def RequestFault.message : RequestFault → String
  | .invalidTableId path payload => (Failure.invalidTableId path payload).message
  | .emptyBatch operation => "Batch for " ++ operation ++ " has no entries"

/-- The failure of an operation whose request has a fault. -/
def RequestFault.toFailure : RequestFault → Failure
  | .invalidTableId path payload => .invalidTableId path payload
  | fault@(.emptyBatch _) => .invalidRequest fault.message

/-- The fault of a flow that is not in the table its path names. -/
def checkTableId (path : FlowPath) (flow : Flow) : Except RequestFault Unit :=
  if path.table = flow.table then .ok () else .error (.invalidTableId path.table flow.table)

/-- The fault of a batch without members. -/
def checkNonEmpty {α : Type} (operation : String) (entries : List α) :
    Except RequestFault Unit :=
  if entries.isEmpty then .error (.emptyBatch operation) else .ok ()

end Southbound
