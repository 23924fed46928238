import TagOutline.Proofs.Json.RoundTrip

/-!
# Texts that are nested too deep

A reader that has room for so many lists inside each other stops at the bracket that opens one more.
-/

namespace TagOutline.Json

variable {fuel : Nat} {room inner : Option Nat} {fault : Fault}

theorem items_of_error {cs : List Char} (h : value fuel room cs = .error fault) :
    items (fuel + 1) room cs = .error fault := by
  rw [items, h]

/-- A list with a fault inside is no value. -/
theorem value_list_of_error {c : Char} {rest : List Char} (inside : inside? room = some inner)
    (solid : isSpace c = false) (holds : c ≠ ']') (h : items fuel inner (c :: rest) = .error fault) :
    value (fuel + 1) room ('[' :: c :: rest) = .error fault := by
  rw [value]
  simp only [inside, skipSpace_cons solid]
  split
  next after same => exact absurd (List.cons.inj same).1 holds
  next other => rw [h]

/-- Fuel for two steps at each bracket is enough to come to the one for which there is no room. -/
theorem value_nested (room : Nat) (rest : List Char) (fuel : Nat) :
    value (fuel + 2 * room + 1) (some room) ('[' :: (List.replicate room '[' ++ rest)) =
      failAt .tooDeepList ('[' :: rest) := by
  induction room with
  | zero => rfl
  | succ room ih =>
    rw [List.replicate_succ, List.cons_append, Nat.mul_add]
    exact value_list_of_error rfl rfl (by decide) (items_of_error ih)

theorem readWithin_nested {room n : Nat} (deep : room < n) (rest : List Char) :
    ∃ remaining, readWithin room (String.ofList (List.replicate n '[' ++ rest)) =
      .error ⟨.tooDeepList, remaining⟩ := by
  obtain ⟨more, rfl⟩ : ∃ more, n = room + 1 + more := ⟨n - (room + 1), by omega⟩
  have opening : List.replicate (room + 1 + more) '[' ++ rest =
      '[' :: (List.replicate room '[' ++ (List.replicate more '[' ++ rest)) := by
    rw [List.replicate_add, List.append_assoc, List.replicate_succ, List.cons_append]
  obtain ⟨fuel, enough⟩ : ∃ fuel, 2 * ('[' :: (List.replicate room '[' ++
      (List.replicate more '[' ++ rest))).length + 2 = fuel + 2 * room + 1 :=
    ⟨2 * more + 2 * rest.length + 3, by simp; omega⟩
  refine ⟨('[' :: (List.replicate more '[' ++ rest)).length, ?_⟩
  rw [readWithin, String.toList_ofList, opening, readChars.eq_2 _ _ (by simp), skipSpace_cons rfl,
    enough, value_nested]
  rfl

end TagOutline.Json
