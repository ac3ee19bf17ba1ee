import DistTaskSystem.Common.Task

/-!
# DTS — JSON through a Struct

`JsonToStruct` writes a null as a null and an array as a struct with numbered fields.
`StructToJson` has no case for the null and makes an object of every struct, so the two
are inverse on the objects that hold neither.

Numbers are compared by value, as `nlohmann::json` does. A `double` has them exactly.

## Results

* `length_structToMembers_le` — no member is added on the way.
* `round_trip_iff`            — the objects that come back.
-/

namespace DistTaskSystem

mutual

/-- No null and no array, at any depth. -/
def Json.Plain : Json → Prop
  | .null => False
  | .bool _ => True
  | .number _ => True
  | .string _ => True
  | .array _ => False
  | .object members => MembersPlain members

def MembersPlain : List (String × Json) → Prop
  | [] => True
  | (_, v) :: rest => v.Plain ∧ MembersPlain rest

end

/-- No member is added on the way. -/
theorem length_structToMembers_le (members : List (String × Json)) :
    (structToMembers (membersToStruct members)).length ≤ members.length := by
  induction members with
  | nil => exact le_refl 0
  | cons member rest ih =>
    obtain ⟨k, v⟩ := member
    rw [membersToStruct, structToMembers]
    split
    · exact Nat.succ_le_succ ih
    · exact ih.trans (Nat.le_succ _)

mutual

/-- A value comes back, and unchanged, exactly if it is plain. -/
theorem valueToJson?_iff (j : Json) : valueToJson? (jsonToValue j) = some j ↔ j.Plain := by
  cases j with
  | null =>
    rw [jsonToValue, valueToJson?, Json.Plain]
    exact iff_of_false (fun h => nomatch h) id
  | bool b =>
    rw [jsonToValue, valueToJson?, Json.Plain]
    exact iff_of_true rfl trivial
  | number q =>
    rw [jsonToValue, valueToJson?, Json.Plain]
    exact iff_of_true rfl trivial
  | string s =>
    rw [jsonToValue, valueToJson?, Json.Plain]
    exact iff_of_true rfl trivial
  | array items =>
    -- it comes back as an object
    rw [jsonToValue, valueToJson?, Json.Plain]
    exact iff_of_false (fun h => nomatch Option.some.inj h) id
  | object members =>
    rw [jsonToValue, valueToJson?, Json.Plain, Option.some.injEq, Json.object.injEq]
    exact structToMembers_iff members

theorem structToMembers_iff (members : List (String × Json)) :
    structToMembers (membersToStruct members) = members ↔ MembersPlain members := by
  cases members with
  | nil =>
    rw [membersToStruct, structToMembers, MembersPlain]
    exact iff_of_true rfl trivial
  | cons member rest =>
    obtain ⟨k, v⟩ := member
    rw [membersToStruct, structToMembers, MembersPlain, ← valueToJson?_iff v,
      ← structToMembers_iff rest]
    cases hvalue : valueToJson? (jsonToValue v) with
    | some j =>
      simp only [List.cons.injEq, Prod.mk.injEq, true_and, Option.some.injEq]
    | none =>
      -- a member is missing
      refine iff_of_false (fun h => ?_) fun h => nomatch h.1
      have hle := length_structToMembers_le rest
      dsimp only at h
      rw [h, List.length_cons] at hle
      omega

end

/-- **The round trip.** An object comes back as it was exactly if it is plain. -/
theorem round_trip_iff (members : List (String × Json)) :
    structToJson (jsonToStruct (.object members)) = .object members ↔
      (Json.object members).Plain := by
  rw [jsonToStruct, structToJson, Json.Plain, Json.object.injEq]
  exact structToMembers_iff members

/-- The object of the repository's test of the round trip. -/
def testObject : List (String × Json) :=
  [("count", .number 123), ("is_valid", .bool true), ("nested", .object [("key", .string "value")]),
    ("null_val", .null), ("url", .string "http://example.com")]

theorem null_val_dropped :
    structToJson (jsonToStruct (.object testObject)) =
      .object (testObject.filter fun member => member.1 ≠ "null_val") ∧
    structToJson (jsonToStruct (.object testObject)) ≠ .object testObject := by
  refine ⟨rfl, fun h => ?_⟩
  exact nomatch congrArg List.length (Json.object.inj h)

end DistTaskSystem
