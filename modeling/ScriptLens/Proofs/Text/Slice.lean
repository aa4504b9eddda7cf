import ScriptLens.Text.Slice

namespace ScriptLens.Text

theorem foldl_utf8Size (bytes : Nat) (cs : List Char) :
    cs.foldl (fun bytes c => bytes + c.utf8Size) bytes = bytes + byteLength cs := by
  induction cs generalizing bytes with
  | nil => rfl
  | cons c cs ih =>
      have hcons : byteLength (c :: cs) = 0 + c.utf8Size + byteLength cs := ih _
      rw [List.foldl_cons, ih, hcons, Nat.zero_add, Nat.add_assoc]

@[simp] theorem byteLength_nil : byteLength [] = 0 := rfl

@[simp] theorem byteLength_cons (c : Char) (cs : List Char) :
    byteLength (c :: cs) = c.utf8Size + byteLength cs := by
  rw [byteLength, List.foldl_cons, foldl_utf8Size, Nat.zero_add]

@[simp] theorem byteLength_append (xs ys : List Char) :
    byteLength (xs ++ ys) = byteLength xs + byteLength ys := by
  rw [byteLength, List.foldl_append, foldl_utf8Size]
  rfl

theorem length_le_byteLength (cs : List Char) : cs.length ≤ byteLength cs := by
  induction cs with
  | nil => exact Nat.le_refl 0
  | cons c cs ih =>
      have hpos := c.utf8Size_pos
      rw [byteLength_cons, List.length_cons]
      omega

theorem dropBytes?_cons (n : Nat) (c : Char) (cs : List Char) :
    dropBytes? (c.utf8Size + n) (c :: cs) = dropBytes? n cs := by
  obtain ⟨k, hk⟩ := Nat.exists_eq_add_one_of_ne_zero (Nat.ne_of_gt c.utf8Size_pos)
  rw [show c.utf8Size + n = k + n + 1 by omega, dropBytes?, if_pos (by omega)]
  exact congrArg (dropBytes? · cs) (by omega)

theorem takeBytes?_cons (n : Nat) (c : Char) (cs : List Char) :
    takeBytes? (c.utf8Size + n) (c :: cs) = (takeBytes? n cs).map (c :: ·) := by
  obtain ⟨k, hk⟩ := Nat.exists_eq_add_one_of_ne_zero (Nat.ne_of_gt c.utf8Size_pos)
  rw [show c.utf8Size + n = k + n + 1 by omega, takeBytes?, if_pos (by omega)]
  exact congrArg (fun bytes => (takeBytes? bytes cs).map (c :: ·)) (by omega)

theorem dropBytes?_append (xs ys : List Char) : dropBytes? (byteLength xs) (xs ++ ys) = some ys := by
  induction xs with
  | nil => exact dropBytes?.eq_1 ys
  | cons x xs ih => rw [byteLength_cons, List.cons_append, dropBytes?_cons, ih]

theorem takeBytes?_append (xs ys : List Char) : takeBytes? (byteLength xs) (xs ++ ys) = some xs := by
  induction xs with
  | nil => exact takeBytes?.eq_1 ys
  | cons x xs ih =>
      rw [byteLength_cons, List.cons_append, takeBytes?_cons, ih]
      rfl

theorem slice?_append (before covered after : List Char) :
    slice? (byteLength before) (byteLength (before ++ covered)) (before ++ (covered ++ after)) =
      some covered := by
  rw [slice?, dropBytes?_append, byteLength_append, Nat.add_sub_cancel_left, Option.bind_some,
    takeBytes?_append]

end ScriptLens.Text
