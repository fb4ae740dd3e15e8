import Southbound.Group.Basic
import Southbound.Flow.Json

/-!
# Groups in documents

Groups and their buckets are records.  The ports and groups that a bucket
watches are not written when they are absent.
-/

namespace Southbound

open Json

instance : Encode GroupType := ⟨fun t => encode t.name⟩

instance : Decode GroupType where
  decode := decodeNames
    [("all", .all), ("select", .select), ("indirect", .indirect),
      ("fast_failover", .fastFailover)]

instance : Encode Bucket where
  encode b := .object <|
    member "weight" b.weight ++ optionalMember "watch_port" b.watchPort ++
    optionalMember "watch_group" b.watchGroup ++ member "actions" b.actions

instance : Decode Bucket where
  decode p j := do
    let fields ← recordFields ["weight", "watch_port", "watch_group", "actions"] j
    return {
      weight := ← fieldOr p fields "weight" 0
      watchPort := ← fieldOr p fields "watch_port" none
      watchGroup := ← fieldOr p fields "watch_group" none
      actions := ← fieldOr p fields "actions" [] }

instance : Encode Group where
  encode g := .object <|
    member "group_id" g.id ++ member "group_type" g.type ++ member "buckets" g.buckets ++
    member "barrier" g.barrier

instance : Decode Group where
  decode p j := do
    let fields ← recordFields ["group_id", "group_type", "buckets", "barrier"] j
    return {
      id := ← requiredField p fields "group_id"
      type := ← fieldOr p fields "group_type" .all
      buckets := ← fieldOr p fields "buckets" []
      barrier := ← fieldOr p fields "barrier" false }

end Southbound
