import RowQuery.Json.Reader
import RowQuery.Proofs.Json.Numeral
import RowQuery.Proofs.Json.Text

/-!
# Written values read back

The text of a value, laid out as a tree, is the tree of the value, and nothing of what follows it is
read. So a reader of the text is a reader of that tree, and nothing about texts is left to prove of
the readers of particular shapes.

Only numbers can get lost on the way: one of floating point may be read as another one. So the
statements ask of the numbers in a value that they are read back.

## Main definitions

* `Json.numbers`: the numbers in a value.
* `Json.ReadsBack`: they are all read back from their texts.

## Main results

* `Doc.scan_write`: the tree of a written value, in as many steps as three for each character.
* `read_render`: a reader of the text of a value reads its tree.
-/

namespace RowQuery.Json

mutual

/-- The numbers in a value. -/
def numbers : Json → List Number
  | number n => [n]
  | array items => itemNumbers items
  | object members => memberNumbers members
  | _ => []

/-- The numbers in items. -/
def itemNumbers : List Json → List Number
  | [] => []
  | item :: items => numbers item ++ itemNumbers items

/-- The numbers in members. -/
def memberNumbers : List (String × Json) → List Number
  | [] => []
  | (_, value) :: members => numbers value ++ memberNumbers members

end

/-- All numbers in the value are read back from their texts. -/
def ReadsBack (j : Json) : Prop :=
  ∀ n ∈ j.numbers, n.ReadsBack

theorem mem_itemNumbers {n : Number} {items : List Json} :
    n ∈ itemNumbers items ↔ ∃ item ∈ items, n ∈ item.numbers := by
  induction items with
  | nil => simp [itemNumbers]
  | cons item items ih => simp [itemNumbers, ih]

theorem mem_memberNumbers {n : Number} {members : List (String × Json)} :
    n ∈ memberNumbers members ↔ ∃ m ∈ members, n ∈ m.2.numbers := by
  induction members with
  | nil => simp [memberNumbers]
  | cons m members ih => simp [memberNumbers, ih]

theorem ReadsBack.array {items : List Json} (h : ∀ item ∈ items, item.ReadsBack) :
    (Json.array items).ReadsBack := by
  intro n hn
  obtain ⟨item, hitem, hn⟩ := mem_itemNumbers.mp hn
  exact h item hitem n hn

theorem ReadsBack.object {members : List (String × Json)} (h : ∀ m ∈ members, m.2.ReadsBack) :
    (Json.object members).ReadsBack := by
  intro n hn
  obtain ⟨m, hm, hn⟩ := mem_memberNumbers.mp hn
  exact h m hm n hn

theorem ReadsBack.text (s : String) : (Json.text s).ReadsBack := by
  rintro n ⟨⟩

/-! ### The first character -/

/-- The character may be the first one of a value. -/
def StartsValue (c : Char) : Prop :=
  isGap c = false ∧ c ≠ ']'

theorem dropGap_cons {c : Char} (hc : isGap c = false) (cs : List Char) :
    dropGap (c :: cs) = c :: cs := by
  simp [dropGap, hc]

theorem isGap_of_numeral {c : Char} (hc : c = '-' ∨ c.isDigit = true) : isGap c = false := by
  simp only [isGap, Bool.or_eq_false_iff, decide_eq_false_iff_not]
  refine ⟨⟨⟨?_, ?_⟩, ?_⟩, ?_⟩ <;> rintro rfl <;> revert hc <;> decide

theorem exists_write_eq_cons {j : Json} (hj : j.ReadsBack) :
    ∃ c cs, j.write = c :: cs ∧ StartsValue c := by
  cases j with
  | null => exact ⟨_, _, rfl, rfl, by decide⟩
  | bool b => cases b <;> exact ⟨_, _, rfl, rfl, by decide⟩
  | number n =>
    obtain ⟨c, cs, hwrite, hc⟩ := (hj n List.mem_cons_self).head
    refine ⟨c, cs, hwrite, isGap_of_numeral hc, ?_⟩
    rintro rfl
    revert hc
    decide
  | text s => exact ⟨_, _, rfl, rfl, by decide⟩
  | array items => cases items <;> exact ⟨_, _, rfl, rfl, by decide⟩
  | object members => cases members <;> exact ⟨_, _, rfl, rfl, by decide⟩

/-! ### What follows -/

theorem endsNumeral_writeItems (items : List Json) (rest : List Char) :
    EndsNumeral (writeItems items ++ rest) := by
  cases items <;> rintro c ⟨⟩ <;> decide

theorem endsNumeral_writeMembers (members : List (String × Json)) (rest : List Char) :
    EndsNumeral (writeMembers members ++ rest) := by
  cases members <;> rintro c ⟨⟩ <;> decide

theorem endsNumeral_nil : EndsNumeral [] := by
  rintro c ⟨⟩

namespace Doc

/-! ### Steps of the scanner -/

section Steps

variable {fuel : Nat} {c : Char} {cs cs' rest : List Char} {ending : Ending}

theorem scan_leaf (hgap : isGap c = false) (harray : c ≠ '[') (hobject : c ≠ '\x7b') :
    scan (fuel + 1) (c :: cs) = scanLeaf (c :: cs) := by
  rw [scan, dropGap_cons hgap]
  simp [harray, hobject]

theorem scan_array {items : List Doc} (h : scanFirstItem fuel cs = (items, ending, rest)) :
    scan (fuel + 1) ('[' :: cs) = (array items ending, rest) := by
  rw [show scan (fuel + 1) ('[' :: cs) = (array (scanFirstItem fuel cs).1
    (scanFirstItem fuel cs).2.1, (scanFirstItem fuel cs).2.2) from rfl, h]

theorem scan_object {members : List (Except Fault String × Doc)}
    (h : scanFirstMember fuel cs = (members, ending, rest)) :
    scan (fuel + 1) ('\x7b' :: cs) = (object members ending, rest) := by
  rw [show scan (fuel + 1) ('\x7b' :: cs) = (object (scanFirstMember fuel cs).1
    (scanFirstMember fuel cs).2.1, (scanFirstMember fuel cs).2.2) from rfl, h]

theorem scanFirstItem_cons (hc : StartsValue c) :
    scanFirstItem (fuel + 1) (c :: cs) = scanItem fuel (c :: cs) := by
  rw [scanFirstItem, dropGap_cons hc.1]
  simp [hc.2]

theorem scanItem_cons {item : Doc} {items : List Doc} (hitem : scan fuel cs = (item, cs'))
    (hitems : scanNextItem fuel cs' = (items, ending, rest)) :
    scanItem (fuel + 1) cs = (item :: items, ending, rest) := by
  rw [scanItem, hitem]
  simp only [hitems]

theorem scanNextItem_comma (hc : StartsValue c) :
    scanNextItem (fuel + 1) (',' :: c :: cs) = scanItem fuel (c :: cs) := by
  rw [scanNextItem, dropGap_cons (by rfl)]
  simp [dropGap_cons hc.1, hc.2]

theorem scanMember_cons {atEnd : Break → Ending} {name : Except Fault String} {value : Doc}
    {members : List (Except Fault String × Doc)} {cs'' : List Char}
    (hname : scanText cs = .ok (name, ':' :: cs')) (hvalue : scan fuel cs' = (value, cs''))
    (hmembers : scanNextMember fuel cs'' = (members, ending, rest)) :
    scanMember (fuel + 1) atEnd cs = ((name, value) :: members, ending, rest) := by
  rw [scanMember, hname]
  simp only [dropGap_cons (show isGap ':' = false from rfl), hvalue, hmembers]

theorem scanFirstItem_write {item : Json} (hitem : item.ReadsBack) :
    scanFirstItem (fuel + 1) (item.write ++ cs) = scanItem fuel (item.write ++ cs) := by
  obtain ⟨c, ds, hwrite, hc⟩ := exists_write_eq_cons hitem
  rw [hwrite]
  exact scanFirstItem_cons hc

theorem scanNextItem_comma_write {item : Json} (hitem : item.ReadsBack) :
    scanNextItem (fuel + 1) (',' :: (item.write ++ cs)) = scanItem fuel (item.write ++ cs) := by
  obtain ⟨c, ds, hwrite, hc⟩ := exists_write_eq_cons hitem
  rw [hwrite]
  exact scanNextItem_comma hc

theorem scanFirstMember_write (name : String) :
    scanFirstMember (fuel + 1) (writeText name ++ cs)
      = scanMember fuel .broken (name.toList.flatMap escape ++ '"' :: cs) := by
  rw [writeText, List.cons_append, List.append_assoc]
  rfl

theorem scanNextMember_comma_write (name : String) :
    scanNextMember (fuel + 1) (',' :: (writeText name ++ cs))
      = scanMember fuel .dangling (name.toList.flatMap escape ++ '"' :: cs) := by
  rw [writeText, List.cons_append, List.append_assoc]
  rfl

end Steps

/-! ### Leaves -/

theorem scanLeaf_numeral {c : Char} (hc : c = '-' ∨ c.isDigit = true) (cs : List Char) :
    scanLeaf (c :: cs) = numberLeaf (c :: cs) := by
  rw [scanLeaf.eq_def]
  split
  case h_6 h =>
    cases h
    exact if_pos (by simpa using hc)
  -- No word and no string begins with a sign or a digit.
  all_goals
    rename_i h
    cases h
  all_goals exact absurd hc (by decide)

theorem scan_writeNumber {n : Number} (hn : n.ReadsBack) {fuel : Nat} {rest : List Char}
    (hrest : EndsNumeral rest) : scan (fuel + 1) (n.write ++ rest) = (number (.ok n), rest) := by
  obtain ⟨c, cs, hwrite, hc⟩ := hn.head
  have hleaf := hn.leaf rest hrest
  rw [hwrite, List.cons_append] at hleaf ⊢
  rw [scan_leaf (isGap_of_numeral hc) (by rintro rfl; revert hc; decide)
    (by rintro rfl; revert hc; decide), scanLeaf_numeral hc, hleaf]

theorem scan_writeText (s : String) (fuel : Nat) (rest : List Char) :
    scan (fuel + 1) (writeText s ++ rest) = (text (.ok s), rest) := by
  show textLeaf ((s.toList.flatMap escape ++ ['"']) ++ rest) = _
  rw [List.append_assoc, List.singleton_append, textLeaf, scanText_writeText]

/-! ### Values

The scanner takes three steps for a bracket, a comma or a brace and what stands behind it, which is
what the bound counts. -/

mutual

/-- **A written value is laid out as its tree**, whatever follows it but more of a numeral. -/
theorem scan_write (j : Json) (hj : j.ReadsBack) {fuel : Nat} {rest : List Char}
    (hfuel : 3 * j.write.length ≤ fuel) (hrest : EndsNumeral rest) :
    scan fuel (j.write ++ rest) = (ofValue j, rest) := by
  have hlength : 0 < j.write.length := by
    obtain ⟨c, cs, hwrite, -⟩ := exists_write_eq_cons hj
    rw [hwrite]
    exact Nat.succ_pos _
  obtain ⟨fuel, rfl⟩ : ∃ k, fuel = k + 3 := ⟨fuel - 3, by omega⟩
  match j with
  | .null => rfl
  | .bool true => rfl
  | .bool false => rfl
  | .number n => exact scan_writeNumber (hj n List.mem_cons_self) hrest
  | .text s => exact scan_writeText s _ rest
  | .array [] => rfl
  | .array (item :: items) =>
    obtain ⟨hitem, hitems⟩ := List.forall_mem_append.1 hj
    simp only [write, List.length_cons, List.length_append] at hfuel
    refine scan_array ?_
    rw [List.append_eq, List.append_assoc, scanFirstItem_write hitem]
    exact scanItem_cons (scan_write item hitem (by omega) (endsNumeral_writeItems items rest))
      (scanNextItem_write items hitems (by omega))
  | .object [] => rfl
  | .object ((name, value) :: members) =>
    obtain ⟨hvalue, hmembers⟩ := List.forall_mem_append.1 hj
    simp only [write, List.length_cons, List.length_append] at hfuel
    refine scan_object ?_
    rw [List.append_eq, List.append_assoc, List.cons_append, List.append_assoc,
      scanFirstMember_write]
    exact scanMember_cons (scanText_writeText name _)
      (scan_write value hvalue (by omega) (endsNumeral_writeMembers members rest))
      (scanNextMember_write members hmembers (by omega))

/-- The items behind one of them. -/
theorem scanNextItem_write (items : List Json) (hitems : ∀ n ∈ itemNumbers items, n.ReadsBack)
    {fuel : Nat} {rest : List Char} (hfuel : 3 * (writeItems items).length ≤ fuel) :
    scanNextItem fuel (writeItems items ++ rest) = (ofValue.ofItems items, .closed, rest) := by
  have hlength : 0 < (writeItems items).length := by cases items <;> exact Nat.succ_pos _
  obtain ⟨fuel, rfl⟩ : ∃ k, fuel = k + 2 := ⟨fuel - 2, by omega⟩
  match items with
  | [] => rfl
  | item :: items =>
    obtain ⟨hitem, hitems⟩ := List.forall_mem_append.1 hitems
    simp only [writeItems, List.length_cons, List.length_append] at hfuel
    rw [writeItems, List.cons_append, List.append_assoc, scanNextItem_comma_write hitem]
    exact scanItem_cons (scan_write item hitem (by omega) (endsNumeral_writeItems items rest))
      (scanNextItem_write items hitems (by omega))

/-- The members behind one of them. -/
theorem scanNextMember_write (members : List (String × Json))
    (hmembers : ∀ n ∈ memberNumbers members, n.ReadsBack) {fuel : Nat} {rest : List Char}
    (hfuel : 3 * (writeMembers members).length ≤ fuel) :
    scanNextMember fuel (writeMembers members ++ rest)
      = (ofValue.ofMembers members, .closed, rest) := by
  have hlength : 0 < (writeMembers members).length := by cases members <;> exact Nat.succ_pos _
  obtain ⟨fuel, rfl⟩ : ∃ k, fuel = k + 2 := ⟨fuel - 2, by omega⟩
  match members with
  | [] => rfl
  | (name, value) :: members =>
    obtain ⟨hvalue, hmembers⟩ := List.forall_mem_append.1 hmembers
    simp only [writeMembers, List.length_cons, List.length_append] at hfuel
    rw [writeMembers, List.cons_append, List.append_assoc, List.cons_append, List.append_assoc,
      scanNextMember_comma_write]
    exact scanMember_cons (scanText_writeText name _)
      (scan_write value hvalue (by omega) (endsNumeral_writeMembers members rest))
      (scanNextMember_write members hmembers (by omega))

end

end Doc

/-! ### Whole texts -/

/-- The tree of the text of a value, and nothing follows it. -/
theorem Doc.ofText_render {j : Json} (hj : j.ReadsBack) :
    Doc.ofText j.render = (Doc.ofValue j, false) := by
  have hscan := Doc.scan_write j hj (Nat.le_add_right (3 * j.write.length) 3) endsNumeral_nil
  rw [List.append_nil] at hscan
  rw [Doc.ofText, render, String.length_ofList, String.toList_ofList, hscan]
  rfl

/-- A reader of a text reads its tree, if nothing follows it. -/
theorem read_of_ofText {α : Type} {s : String} {d : Doc} (h : Doc.ofText s = (d, false))
    (reader : Doc → Except Fault α) : read reader s = reader d := by
  rw [read, h]
  cases hd : reader d <;> simp [hd] <;> rfl

/-- **A reader of the text of a value reads its tree.** -/
theorem read_render {α : Type} {j : Json} (hj : j.ReadsBack) (reader : Doc → Except Fault α) :
    read reader j.render = reader (Doc.ofValue j) :=
  read_of_ofText (Doc.ofText_render hj) reader

end RowQuery.Json
