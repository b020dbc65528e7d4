import TestCatalog.Proofs.DeclaredNames

/-!
# Name spans

The name that a line declares stands at one place of the line, behind the first lead and blanks. A
renamed line has the new name there, and also at every other place where the old name stood. If
there is no such place, the rest of the line is kept.
-/

namespace TestCatalog.Proofs

/-- The name that a line declares stands between `before` and `after`: above it are the first lead
on the line and blanks. -/
structure NameAt (d : Dialect) (line before name after : Text) : Prop where
  declared : declared? d line = some name
  line_eq : line = before ++ (name ++ after)
  lead : ∃ head blanks, AllBlank blanks ∧ Text.cut? (headLead d) before = some (head, blanks)

/-! ## Replaced occurrences -/

section Occurrences

variable {old new t before after : Text}

lemma replaceAll_of_cut? (hold : old ≠ []) (h : Text.cut? old t = some (before, after)) :
    Text.replaceAll old new t = before ++ (new ++ Text.replaceAll old new after) := by
  obtain ⟨rfl, hfirst⟩ := cut?_eq_some_iff.mp h
  clear h
  induction before with
  | nil => exact replaceAll_append_old hold after
  | cons c before ih =>
    have hstart : ¬ old <+: c :: (before ++ (old ++ after)) := by
      rintro ⟨u, hu⟩
      exact absurd (hfirst [] u hu.symm) (by simp)
    rw [List.cons_append, replaceAll_cons hstart, ih fun s u hs => ?_]
    · rfl
    · exact Nat.le_of_succ_le_succ (hfirst (c :: s) u (by rw [List.cons_append, hs]; rfl))

lemma replaceAll_eq_self (h : ¬ old <:+: t) : Text.replaceAll old new t = t := by
  induction t with
  | nil => rfl
  | cons c t ih =>
    rw [replaceAll_cons fun hstart => h hstart.isInfix,
      ih fun hpart => h (hpart.trans (List.suffix_cons c t).isInfix)]

/-- A text falls into the gaps between the places that are replaced. -/
lemma exists_gaps (hold : old ≠ []) (new t : Text) : ∃ gaps, gaps ≠ [] ∧ t = Text.join old gaps ∧
    Text.replaceAll old new t = Text.join new gaps ∧ ∀ gap ∈ gaps, ¬ old <:+: gap := by
  induction hlen : t.length using Nat.strongRecOn generalizing t with
  | ind len ih =>
    subst hlen
    cases hcut : Text.cut? old t with
    | none =>
      have hnone := cut?_eq_none_iff.mp hcut
      exact ⟨[t], List.cons_ne_nil t [], by simp [Text.join],
        by simp [Text.join, replaceAll_eq_self hnone], by simpa using hnone⟩
    | some parts =>
      obtain ⟨before, after⟩ := parts
      obtain ⟨ht, hfirst⟩ := cut?_eq_some_iff.mp hcut
      have hlt : after.length < t.length := by
        have hpos := List.length_pos_iff.mpr hold
        rw [ht, List.length_append, List.length_append]
        omega
      obtain ⟨gaps, hne, hafter, hreplace, hgaps⟩ := ih after.length hlt after rfl
      refine ⟨before :: gaps, List.cons_ne_nil before gaps, ?_, ?_, ?_⟩
      · rw [join_cons _ _ hne, ← hafter, ht]
      · rw [join_cons _ _ hne, replaceAll_of_cut? hold hcut, hreplace]
      · intro gap hgap
        rcases List.mem_cons.mp hgap with rfl | hgap
        swap
        · exact hgaps gap hgap
        rintro ⟨s, u, hbefore⟩
        have hle := hfirst s (u ++ (old ++ after)) (by rw [ht, ← hbefore]; simp)
        have hpos := List.length_pos_iff.mpr hold
        rw [← hbefore, List.length_append, List.length_append] at hle
        omega

lemma length_join (separator : Text) {gaps : List Text} (hne : gaps ≠ []) :
    (Text.join separator gaps).length + separator.length =
      gaps.flatten.length + gaps.length * separator.length := by
  induction gaps with
  | nil => exact absurd rfl hne
  | cons gap gaps ih =>
    by_cases hgaps : gaps = []
    · subst hgaps
      simp [Text.join]
    · have hlen := ih hgaps
      rw [join_cons _ _ hgaps, List.flatten_cons, List.length_cons, Nat.succ_mul]
      simp only [List.length_append]
      omega

lemma replaceAll_eq_self_iff (hold : old ≠ []) (hnew : new ≠ old) :
    Text.replaceAll old new t = t ↔ ¬ old <:+: t := by
  constructor
  · intro hself
    obtain ⟨gaps, hne, ht, hreplace, hgaps⟩ := exists_gaps hold new t
    obtain ⟨gap, gaps, rfl⟩ := List.exists_cons_of_ne_nil hne
    by_cases hnil : gaps = []
    · subst hnil
      have hgap : t = gap := by simpa [Text.join] using ht
      rw [hgap]
      exact hgaps gap List.mem_cons_self
    · -- both names stand between the same gaps, so that they are equally long
      have hjoin : Text.join new (gap :: gaps) = Text.join old (gap :: gaps) := by
        rw [← hreplace, ← ht, hself]
      have hlen : new.length = old.length := by
        have hlenold := length_join old hne
        have hlennew := length_join new hne
        rw [hjoin] at hlennew
        have hpos := List.length_pos_iff.mpr hnil
        rw [List.length_cons, Nat.succ_mul] at hlenold hlennew
        have hmul : gaps.length * new.length = gaps.length * old.length := by omega
        exact Nat.eq_of_mul_eq_mul_left hpos hmul
      rw [join_cons _ _ hnil, join_cons _ _ hnil] at hjoin
      exact absurd (List.append_inj_left (List.append_cancel_left hjoin) hlen) hnew
  · exact replaceAll_eq_self

end Occurrences

/-! ## Names on lines -/

variable {d : Dialect} {line before name after : Text}

/-- A line has a place for the name that it declares. -/
theorem exists_nameAt (h : declared? d line = some name) :
    ∃ before after, NameAt d line before name after := by
  have hname := h
  rw [declared?_eq] at hname
  obtain ⟨before, after, quote, hleads, hline⟩ := exists_leads hname
  exact ⟨before, after, h, hline, hleads.lead⟩

/-- A line has no more than one place for the name that it declares. -/
theorem NameAt.unique {before' name' after' : Text} (h : NameAt d line before name after)
    (h' : NameAt d line before' name' after') :
    before = before' ∧ name = name' ∧ after = after' := by
  obtain ⟨hdeclared, hline, head, blanks, hblanks, hcut⟩ := h
  obtain ⟨hdeclared', hline', head', blanks', hblanks', hcut'⟩ := h'
  rw [hdeclared] at hdeclared'
  cases hdeclared'
  have hwhole := (cut?_append_iff (name ++ after)).mpr hcut
  have hwhole' := (cut?_append_iff (name ++ after')).mpr hcut'
  rw [← hline] at hwhole
  rw [← hline', hwhole] at hwhole'
  obtain ⟨rfl, hrest⟩ := Prod.mk.inj (Option.some.inj hwhole')
  rw [declared?_eq] at hdeclared
  obtain ⟨hbare, hne⟩ := bareEnds_of_nameOnLine? hdeclared
  have hstart (t : Text) : Text.trimStart (name ++ t) = name ++ t := by
    refine trimStart_eq_self fun c hc => hbare.1 c ?_
    rwa [List.head?_append_of_ne_nil _ hne] at hc
  have htrim := congrArg Text.trimStart hrest
  rw [trimStart_append_left hblanks, trimStart_append_left hblanks', hstart, hstart] at htrim
  have hafter := List.append_cancel_left htrim
  subst hafter
  rw [hline'] at hline
  exact ⟨(List.append_cancel_right hline).symm, rfl, rfl⟩

/-! ## Renamed lines -/

/-- What a renamed line has become, where the old name stands between `before` and `after`. -/
structure Renamed (old new line row before after : Text) : Prop where
  /-- The old name is replaced wherever it stands, from the left and without overlap. -/
  everywhere : ∃ gaps, line = Text.join old gaps ∧ row = Text.join new gaps ∧
    ∀ gap ∈ gaps, ¬ old <:+: gap
  /-- Nothing else changes if the old name stands nowhere else. -/
  once : (∀ s t, line = s ++ (old ++ t) → s = before) → row = before ++ (new ++ after)
  /-- Below the first place of the name the rest is kept only if the old name is not there. -/
  first : (∀ s t, line = s ++ (old ++ t) → before.length ≤ s.length) → new ≠ old →
    (row = before ++ (new ++ after) ↔ ¬ old <:+: after)

theorem NameAt.renamed {old : Text} (h : NameAt d line before old after) (new : Text) :
    Renamed old new line (Text.replaceAll old new line) before after := by
  have hold : old ≠ [] := by
    have hname := h.declared
    rw [declared?_eq] at hname
    exact (bareEnds_of_nameOnLine? hname).2
  have hfirst (hleads : ∀ s t, line = s ++ (old ++ t) → before.length ≤ s.length) :
      Text.replaceAll old new line = before ++ (new ++ Text.replaceAll old new after) :=
    replaceAll_of_cut? hold (cut?_eq_some_iff.mpr ⟨h.line_eq, hleads⟩)
  constructor
  · obtain ⟨gaps, -, hgaps⟩ := exists_gaps hold new line
    exact ⟨gaps, hgaps⟩
  · intro honce
    rw [hfirst fun s t hs => (congrArg List.length (honce s t hs)).ge, replaceAll_eq_self]
    rintro ⟨s, t, hafter⟩
    have hagain := honce (before ++ (old ++ s)) t (by rw [h.line_eq, ← hafter]; simp)
    have hnil : old ++ s = [] := by simpa using hagain
    exact hold (List.append_eq_nil_iff.mp hnil).1
  · intro hleads hnew
    rw [hfirst hleads, List.append_right_inj, List.append_right_inj,
      replaceAll_eq_self_iff hold hnew]

/-- Injection changes a line where its name stands. A line that takes a rename has the new name in
the place of the old one, and wherever else the old name stood; every other line is kept. -/
theorem inject_name_spans (d : Dialect) (source : Text) {filePath folder : Text} {m : RenameMap}
    (h : m.folderOf? filePath = some folder) :
    ∃ rows : List Text, (d.inject filePath source m).value.1 = rows.flatten ∧
      rows.length = (Text.linesInclusive source).length ∧
      ∀ k line row, (Text.linesInclusive source)[k]? = some line → rows[k]? = some row →
        (∀ old new, firstDeclaring? d source old = some k → m.get? folder old = some new →
          ∃ before after, NameAt d line before old after ∧ Renamed old new line row before after) ∧
        ((∀ old, firstDeclaring? d source old = some k → m.get? folder old = none) →
          row = line) := by
  refine ⟨List.zipWith changedLine (Text.linesInclusive source)
    (lineChanges d folder (Text.linesInclusive source) m), ?_, ?_, ?_⟩
  · rw [inject_lines source h]
  · rw [List.length_zipWith, length_lineChanges, Nat.min_self]
  · intro k line row hline hrow
    rw [List.getElem?_zipWith, hline] at hrow
    cases hchange : (lineChanges d folder (Text.linesInclusive source) m)[k]? with
    | none =>
      rw [hchange] at hrow
      cases hrow
    | some change =>
      rw [hchange] at hrow
      obtain rfl : changedLine line change = row := Option.some.inj hrow
      constructor
      · intro old new hfirst hget
        rw [getElem?_lineChanges_eq_some_iff.mpr ⟨hfirst, hget⟩] at hchange
        cases hchange
        obtain ⟨line', hline', hdeclared, -⟩ := firstDeclaring?_eq_some_iff.mp hfirst
        rw [hline] at hline'
        cases hline'
        obtain ⟨before, after, hname⟩ := exists_nameAt hdeclared
        exact ⟨before, after, hname, hname.renamed new⟩
      · intro hnone
        cases change with
        | none => rfl
        | some renamed =>
          obtain ⟨hfirst, hget⟩ := getElem?_lineChanges_eq_some_iff.mp hchange
          rw [hnone renamed.1 hfirst] at hget
          cases hget

def loginRenames : RenameMap :=
  ({} : RenameMap).insert "suite" "test_NEW_login" "test_gid_41_login"

/-- The comment goes on after the name, and holds a quote. -/
def loginSource : Text :=
  "import pytest\ndef test_NEW_login(page):  # don't retry\r\n"

theorem inject_name_spans_login :
    loginRenames.folderOf? "suite/login.py" = some "suite" ∧
      let text :=
        (Dialect.annotatedFunction.inject "suite/login.py" loginSource loginRenames).value.1
      (∃ rows : List Text, text = rows.flatten ∧
        rows.length = (Text.linesInclusive loginSource).length ∧
        ∀ k line row, (Text.linesInclusive loginSource)[k]? = some line → rows[k]? = some row →
          (∀ old new, firstDeclaring? .annotatedFunction loginSource old = some k →
            loginRenames.get? "suite" old = some new →
              ∃ before after, NameAt .annotatedFunction line before old after ∧
                Renamed old new line row before after) ∧
          ((∀ old, firstDeclaring? .annotatedFunction loginSource old = some k →
            loginRenames.get? "suite" old = none) → row = line)) ∧
      text = "import pytest\ndef test_gid_41_login(page):  # don't retry\r\n" := by
  have hfolder : loginRenames.folderOf? "suite/login.py" = some "suite" := by decide +kernel
  exact ⟨hfolder, inject_name_spans .annotatedFunction loginSource hfolder, by decide +kernel⟩

/-- The name of a fixture that begins as the function's name changes too, though it stands in the
parentheses. -/
theorem inject_name_spans_fixture :
    let line : Text := "def test_NEW_login(page, test_NEW_login_user):\n"
    let arguments : Text := "(page, test_NEW_login_user):\n"
    NameAt .annotatedFunction line "def " "test_NEW_login" arguments ∧
      (Dialect.annotatedFunction.inject "suite/login.py" line loginRenames).value.1 =
        "def test_gid_41_login(page, test_gid_41_login_user):\n" ∧
      (Dialect.annotatedFunction.inject "suite/login.py" line loginRenames).value.1 ≠
        "def " ++ ("test_gid_41_login" ++ arguments) := by
  refine ⟨⟨by decide +kernel, by decide +kernel, [], [], allBlank_nil, by decide +kernel⟩, ?_, ?_⟩
  · decide +kernel
  · decide +kernel

end TestCatalog.Proofs
