import RowQuery.Proofs.Reading

/-!
# Variants by name and by number

A value of an enumeration is printed by the name of its variant and can be written by that name, by
its number, or by the text of its number.

## Two searches

The name that is printed is that of the first variant with the number. The variant that is read is
the first one with the name, and here the case of letters does not count. So names that differ only
in case stand in each other's way, even though they are different names: of two such variants the
one that is listed first is read, whichever of the two names is written. A variant is read back from
its own name unless one of the same name up to case is listed before it. Numbers are not in doubt,
nor are their texts, which have no letters, as long as no variant has such a text for its name.

## Main results

* `EnumDef.numberOf?_of_nameOf?`: which variant is read by the name that is printed.
* `EnumDef.read_printed`: the three ways of writing a value.
* `EnumDef.not_read_printed`: different names are not enough.
-/

namespace RowQuery.EnumDef

variable {e : EnumDef} {n : Int64} {name : String}

/-! ### By name -/

/-- The variants that are listed before the first one with a number. -/
def listedBefore (e : EnumDef) (n : Int64) : List (String × Int64) :=
  e.variants.takeWhile fun v => v.2 != n

/-- The variant that prints a number, with those before it and behind it. -/
theorem exists_variants_eq (h : e.nameOf? n = some name) :
    ∃ after, e.variants = e.listedBefore n ++ (name, n) :: after := by
  obtain ⟨⟨name', n'⟩, hfind, rfl⟩ := Option.map_eq_some_iff.mp h
  obtain ⟨hn, before, after, hvariants, hbefore⟩ := List.find?_eq_some_iff_append.mp hfind
  obtain rfl : n' = n := by simpa using hn
  refine ⟨after, ?_⟩
  rw [listedBefore, hvariants, List.takeWhile_append_of_pos (by simpa using hbefore)]
  simp

theorem defines_of_nameOf? (h : e.nameOf? n = some name) : e.defines n = true := by
  rw [defines, h]
  rfl

/-- A number that some name stands for is defined. -/
theorem defines_of_numberOf? (h : e.numberOf? name = some n) : e.defines n = true := by
  obtain ⟨v, hfind, rfl⟩ := Option.map_eq_some_iff.mp h
  exact defines_iff.mpr ⟨v, List.mem_of_find?_eq_some hfind, rfl⟩

/-- **The name that is printed** stands for its variant unless it is the name, up to case, of a
variant listed before that. Any variant listed before has another number. -/
theorem numberOf?_of_nameOf? (h : e.nameOf? n = some name) :
    ∃ m, e.numberOf? name = some m ∧
      (m = n ↔ ∀ v ∈ e.listedBefore n, Text.sameName v.1 name = false) := by
  obtain ⟨after, hvariants⟩ := exists_variants_eq h
  rw [numberOf?, hvariants, List.find?_append]
  cases hfind : (e.listedBefore n).find? fun v => Text.sameName v.1 name with
  | none =>
    refine ⟨n, by simp, iff_of_true rfl ?_⟩
    simpa using List.find?_eq_none.mp hfind
  | some v =>
    have hmem : v ∈ e.listedBefore n := List.mem_of_find?_eq_some hfind
    have hname : Text.sameName v.1 name = true := (List.find?_eq_some_iff_append.mp hfind).1
    have hnumber : v.2 ≠ n := by simpa using List.mem_takeWhile_imp hmem
    refine ⟨v.2, rfl, iff_of_false hnumber fun hall => ?_⟩
    rw [hall v hmem] at hname
    cases hname

/-- Names that are pairwise different up to case are in no one's way. -/
theorem sameName_of_mem_listedBefore
    (hnames : e.variants.Pairwise fun v w => Text.sameName v.1 w.1 = false)
    (h : e.nameOf? n = some name) : ∀ v ∈ e.listedBefore n, Text.sameName v.1 name = false := by
  obtain ⟨after, hvariants⟩ := exists_variants_eq h
  rw [hvariants, List.pairwise_append] at hnames
  intro v hv
  exact hnames.2.2 v hv (name, n) List.mem_cons_self

/-! ### Reading -/

theorem read_of_defines (h : e.defines n = true) : e.read n = .ok (.enum ⟨e, n⟩) := by
  rw [read, if_pos h]

theorem readName_of_numberOf? (h : e.numberOf? name = some n) :
    e.readName name = .ok (.enum ⟨e, n⟩) := by
  rw [readName, h]
  exact read_of_defines (defines_of_numberOf? h)

/-- A text that is no name is taken for a number. -/
theorem readName_showInt (h : e.defines n = true)
    (hnames : ∀ v ∈ e.variants, v.1 ≠ Text.showInt n.toInt) :
    e.readName (Text.showInt n.toInt) = .ok (.enum ⟨e, n⟩) := by
  have hnone : e.numberOf? (Text.showInt n.toInt) = none := by
    rw [numberOf?, Option.map_eq_none_iff, List.find?_eq_none]
    intro v hv hsame
    exact hnames v hv (Text.sameName_showInt_iff.mp hsame)
  rw [readName, hnone, Option.none_or, Text.readInt64?_trim_showInt]
  exact read_of_defines h

/-- **A value of an enumeration is read back** from its number, from the text of its number if that
is no variant's name, and from the name that is printed if no variant listed before has that name up
to case. So it is if all names are different up to case. Otherwise one of those other variants is
read. -/
theorem read_printed {t : DataType} (ht : t.isSequence = false) (hkind : t.kind = .enum e)
    (h : e.nameOf? n = some name) :
    (∃ m, t.read (.text name) = .ok (.enum ⟨e, m⟩) ∧
      (m = n ↔ ∀ v ∈ e.listedBefore n, Text.sameName v.1 name = false)) ∧
    ((e.variants.Pairwise fun v w => Text.sameName v.1 w.1 = false) →
      t.read (.text name) = .ok (.enum ⟨e, n⟩)) ∧
    t.read (.number (.int n.toInt)) = .ok (.enum ⟨e, n⟩) ∧
    ((∀ v ∈ e.variants, v.1 ≠ Text.showInt n.toInt) →
      t.read (.text (Text.showInt n.toInt)) = .ok (.enum ⟨e, n⟩)) := by
  have htext : ∀ s, t.read (.text s) = e.readName s := by
    intro s
    have hs : Json.text s ≠ .null := by rintro ⟨⟩
    rw [DataType.read_of_ne_null ht hs, hkind, Kind.read]
  have hnumber : t.read (.number (.int n.toInt)) = e.read n := by
    have hn : Json.number (.int n.toInt) ≠ .null := by rintro ⟨⟩
    rw [DataType.read_of_ne_null ht hn, hkind, Kind.read, Json.int64?_eq_some_iff.mpr rfl]
    rintro s ⟨⟩
  obtain ⟨m, hm, hiff⟩ := numberOf?_of_nameOf? h
  refine ⟨⟨m, ?_, hiff⟩, fun hnames => ?_, ?_, fun hnames => ?_⟩
  · rw [htext, readName_of_numberOf? hm]
  · obtain rfl : m = n := hiff.mpr (sameName_of_mem_listedBefore hnames h)
    rw [htext, readName_of_numberOf? hm]
  · rw [hnumber, read_of_defines (defines_of_nameOf? h)]
  · rw [htext, readName_showInt (defines_of_nameOf? h) hnames]

/-- A name that looks like another number, and the number and its text beside it. -/
theorem read_printed_seven :
    let e : EnumDef := ⟨"Loose", [("One", 1), ("one", 2), ("Uno", 1), ("7", 70), ("", 8)]⟩
    let t : DataType := ⟨.nullable, .enum e⟩
    e.nameOf? 70 = some "7" ∧
      (∀ v ∈ e.listedBefore 70, Text.sameName v.1 "7" = false) ∧
      (∀ v ∈ e.variants, v.1 ≠ Text.showInt (70 : Int64).toInt) ∧
      t.read (.text "7") = .ok (.enum ⟨e, 70⟩) ∧
      t.read (.number (.int (70 : Int64).toInt)) = .ok (.enum ⟨e, 70⟩) ∧
      t.read (.text (Text.showInt (70 : Int64).toInt)) = .ok (.enum ⟨e, 70⟩) := by
  intro e t
  have hprinted : e.nameOf? 70 = some "7" := rfl
  have hbefore : ∀ v ∈ e.listedBefore 70, Text.sameName v.1 "7" = false := by decide
  have hnames : ∀ v ∈ e.variants, v.1 ≠ Text.showInt (70 : Int64).toInt := by decide
  have ht : t.isSequence = false := rfl
  obtain ⟨⟨m, hname, hiff⟩, -, hnumber, htext⟩ := read_printed ht rfl hprinted
  rw [hiff.mpr hbefore] at hname
  exact ⟨hprinted, hbefore, hnames, hname, hnumber, htext hnames⟩

/-- **Different names are not enough.** Of two names that differ in case the one that is listed
first stands for both, so the other one is not read back. -/
theorem not_read_printed :
    ¬ ∀ (e : EnumDef) (n : Int64) (name : String), (e.variants.map Prod.fst).Nodup →
      e.nameOf? n = some name →
        (⟨.value, .enum e⟩ : DataType).read (.text name) = .ok (.enum ⟨e, n⟩) ∧
        (⟨.value, .enum e⟩ : DataType).read (.number (.int n.toInt)) = .ok (.enum ⟨e, n⟩) ∧
        ((∀ v ∈ e.variants, v.1 ≠ Text.showInt n.toInt) →
          (⟨.value, .enum e⟩ : DataType).read (.text (Text.showInt n.toInt))
            = .ok (.enum ⟨e, n⟩)) := by
  intro h
  let e : EnumDef := ⟨"Level", [("Low", 1), ("LOW", 2)]⟩
  have hsecond := (h e 2 "LOW" (by decide) rfl).1
  have hfirst : (⟨.value, .enum e⟩ : DataType).read (.text "LOW") = .ok (.enum ⟨e, 1⟩) := rfl
  rw [hfirst] at hsecond
  simp at hsecond

end RowQuery.EnumDef
