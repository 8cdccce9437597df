import Mathlib.Data.List.Basic
import Mathlib.Data.List.Nodup
import Wavetable.Json.Value

/-!
Members that overlay others. Of all values that a name has there, the last one that was given is
found, and a name that stood once stands once.
-/

namespace Wavetable.Json.Members

/-- The last of the values that are given to a name. -/
def last? (members : Members) (name : String) : Option Json :=
  (members.filter (·.1 = name)).getLast?.map Prod.snd

/-- The last of the new values of a name is found, and the old one where there is no new one, by
induction on the new members.
-/
theorem get?_overlay (name : String) (members others : Members)
    : get? (overlay members others) name
      = ((last? others name).or (get? members name)) := by
  induction others generalizing members with
  | nil => rfl
  | cons member rest ih =>
      have later := ih (put members member.1 member.2)
      rw [get?_put] at later
      rw [overlay, List.foldl_cons]
      refine later.trans ?_
      by_cases same : member.1 = name
      · cases behind : (rest.filter (·.1 = name)).getLast? <;>
          simp [last?, same, behind, List.getLast?_cons]
      · simp [last?, same]

section
variable {members others : Members} {name : String} {value : Json}

/-- Of members that stand one behind the other, the first ones are found. -/
theorem get?_append
    : get? (members ++ others) name = (get? members name).or (get? others name) := by
  induction members with
  | nil => rfl
  | cons member rest ih => by_cases same : member.1 = name <;> simp [get?, same, ih]

/-- A value is found under a name that is among the names. -/
theorem isSome_get?_iff : (get? members name).isSome ↔ name ∈ members.map Prod.fst := by
  induction members with
  | nil => simp [get?]
  | cons member rest ih =>
      by_cases same : member.1 = name
      · simp [get?, same]
      · simp [get?, same, ih, Ne.symm same]

/-- Under names of their own all values are found. -/
theorem get?_of_mem (distinct : (members.map Prod.fst).Nodup) (member : (name, value) ∈ members)
    : get? members name = some value := by
  induction members with
  | nil => cases member
  | cons first rest ih =>
      obtain ⟨absent, others⟩ := List.nodup_cons.mp distinct
      rcases List.mem_cons.mp member with rfl | later
      · simp [get?]
      · have different : first.1 ≠ name := by
          rintro rfl
          exact absent (List.mem_map.mpr ⟨_, later, rfl⟩)
        rw [get?, if_neg different]
        exact ih others later

/-- A new name stands behind the others. -/
theorem names_put
    : (put members name value).map Prod.fst
      = if name ∈ members.map Prod.fst then members.map Prod.fst
        else members.map Prod.fst ++ [name] := by
  induction members with
  | nil => rfl
  | cons member rest ih =>
      by_cases same : member.1 = name
      · simp [put, same]
      · rw [put, if_neg same, List.map_cons, ih, List.map_cons]
        by_cases there : name ∈ rest.map Prod.fst <;> simp [there, Ne.symm same]

theorem nodup_put (distinct : (members.map Prod.fst).Nodup)
    : ((put members name value).map Prod.fst).Nodup := by
  rw [names_put]
  split
  next => exact distinct
  next absent =>
    rw [← List.concat_eq_append]
    exact distinct.concat absent

/-- Names of their own stay so under an overlay, by induction on the new members. -/
theorem nodup_overlay (distinct : (members.map Prod.fst).Nodup)
    : ((overlay members others).map Prod.fst).Nodup := by
  induction others generalizing members with
  | nil => exact distinct
  | cons member rest ih => exact ih (nodup_put distinct)

theorem mem_put {member : String × Json} (known : member ∈ put members name value)
    : member ∈ members ∨ member = (name, value) := by
  induction members with
  | nil => exact .inr (List.mem_singleton.mp known)
  | cons first rest ih =>
      obtain ⟨key, old⟩ := first
      unfold put at known
      split at known
      next =>
        rcases List.mem_cons.mp known with same | later
        · exact .inr same
        · exact .inl (List.mem_cons_of_mem _ later)
      next =>
        rcases List.mem_cons.mp known with rfl | later
        · exact .inl List.mem_cons_self
        · exact (ih later).imp_left (List.mem_cons_of_mem _)

/-- What stands in an overlay stood below it or was laid over, by induction on the new members. -/
theorem mem_overlay {member : String × Json} (known : member ∈ overlay members others)
    : member ∈ members ∨ member ∈ others := by
  induction others generalizing members with
  | nil => exact .inl known
  | cons first rest ih =>
      rcases ih known with before | later
      · rcases mem_put before with before | rfl
        · exact .inl before
        · exact .inr List.mem_cons_self
      · exact .inr (List.mem_cons_of_mem _ later)

end

end Wavetable.Json.Members
