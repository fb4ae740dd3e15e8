import Southbound.Message.Basic

/-!
# Rejections of groups that exist

A device that is asked to add a group it has already rejects the request, and
for the controller this is as good as an acknowledgement.  Most devices say so
by the numbers of the rejection.  Some say it in words only, and for them the
rule can look for a signal in the text.
-/

namespace Southbound

/-- Whether words stand somewhere in the text of a rejection. -/
def Rejection.says (r : Rejection) (words : String) : Bool :=
  (List.range (r.text.length + 1)).any fun n => words.toList.isPrefixOf (r.text.toList.drop n)

/-- How a rejection is known to say that a group exists. -/
structure GroupExistsRule where
  signal : String := "GROUPEXISTS"
  /-- Whether words count. -/
  textFallback : Bool := true
deriving DecidableEq, Repr, Inhabited

/-- Whether a rejection says that the group exists. -/
def GroupExistsRule.matches (rule : GroupExistsRule) (r : Rejection) : Bool :=
  r.isGroupExists ||
    (rule.textFallback && !rule.signal.isEmpty && r.says rule.signal)

end Southbound
