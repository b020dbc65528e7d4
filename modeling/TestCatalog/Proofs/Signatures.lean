import TestCatalog.Proofs.DeclaredNames
import TestCatalog.Proofs.SectionGrammar

/-!
# Signatures

A signature goes on over the lines below the header while it has open parentheses. The code part of
a line ends at a `#` outside quotes, but its parentheses are counted within quotes too. So a
signature that is complete on one line ends there exactly if its quoted parts do not open more
parentheses than they close.
-/

namespace TestCatalog.Proofs

/-! ## Quoted and bare code -/

/-- The characters of the code that stand within quotes, or those that stand outside of them, where
`quote` is the quote that is open. -/
def codeChars (quoted : Bool) : (quote : Option Char) → Text → Text
  | _, [] => []
  | quote, c :: t =>
    if quote = none ∧ c = '#' then []
    else (if quote.isSome = quoted then [c] else []) ++ codeChars quoted (quoteBelow quote c) t

def bareCode (line : Text) : Text :=
  codeChars false none line

def quotedCode (line : Text) : Text :=
  codeChars true none line

/-- The lines below a signature that is complete: blank ones, and the first other one, which has to
have a triple quote. -/
inductive OpensBelow (case : Text) : Cursor → Except GrammarError Unit → Cursor → Prop where
  | quotes {n : ℕ} {blanks rest : List Text} {line : Text}
      (hblanks : ∀ blank ∈ blanks, IsBlankLine blank) (hline : ¬ IsBlankLine line)
      (hquotes : ['"', '"', '"'] <:+: line) :
      OpensBelow case ⟨n, blanks ++ line :: rest⟩ (.ok ()) ⟨n + blanks.length + 1, rest⟩
  | other {n : ℕ} {blanks rest : List Text} {line : Text}
      (hblanks : ∀ blank ∈ blanks, IsBlankLine blank) (hline : ¬ IsBlankLine line)
      (hquotes : ¬ ['"', '"', '"'] <:+: line) :
      OpensBelow case ⟨n, blanks ++ line :: rest⟩ (.error (.docStringStart case))
        ⟨n + blanks.length + 1, rest⟩
  | atEnd {n : ℕ} {blanks : List Text} (hblanks : ∀ blank ∈ blanks, IsBlankLine blank) :
      OpensBelow case ⟨n, blanks⟩ (.error (.docStringStart case)) ⟨n + blanks.length, []⟩

variable {case : Text}

/-- The parentheses of the code are the bare and the quoted ones. -/
lemma openParens_codeFrom (quote : Option Char) (t : Text) :
    Dialect.openParens (Dialect.codeFrom quote t) =
      Dialect.openParens (codeChars false quote t) +
        Dialect.openParens (codeChars true quote t) := by
  induction t generalizing quote with
  | nil => cases quote <;> rfl
  | cons c t ih =>
    by_cases hcomment : quote = none ∧ c = '#'
    · obtain ⟨rfl, rfl⟩ := hcomment
      rfl
    have hcode : quote = none → c ≠ '#' := fun hnone hc => hcomment ⟨hnone, hc⟩
    have hnil : Dialect.openParens [] = 0 := rfl
    rw [codeFrom_cons hcode, codeChars, codeChars, if_neg hcomment, if_neg hcomment,
      ← List.singleton_append, openParens_append, openParens_append, openParens_append, ih]
    cases quote with
    | none =>
      simp only [Option.isSome_none, if_true, Bool.false_eq_true, if_false, hnil]
      omega
    | some q =>
      simp only [Option.isSome_some, if_true, Bool.true_eq_false, if_false, hnil]
      omega

lemma openParens_trimEnd (t : Text) :
    Dialect.openParens (Text.trimEnd t) = Dialect.openParens t := by
  obtain ⟨r, hr, ht⟩ := exists_trimEnd t
  have hblank : Dialect.openParens r = 0 := by
    apply openParens_eq_zero
    intro c hc hparen
    have hblank := hr c hc
    rcases List.mem_cons.mp hparen with rfl | hparen
    · exact absurd hblank (by decide)
    · rw [List.mem_singleton.mp hparen] at hblank
      exact absurd hblank (by decide)
  conv_rhs => rw [ht, openParens_append, hblank, Int.add_zero]

/-! ## Openings -/

lemma takeQuotes_append {blanks : List Text} (n : ℕ) (rest : List Text)
    (h : ∀ blank ∈ blanks, IsBlankLine blank) :
    Dialect.takeQuotes n (blanks ++ rest) = Dialect.takeQuotes (n + blanks.length) rest := by
  induction blanks generalizing n with
  | nil => rfl
  | cons blank blanks ih =>
    obtain ⟨hblank, hblanks⟩ := List.forall_mem_cons.mp h
    have hblank : Text.trim blank = [] := hblank
    rw [List.cons_append, Dialect.takeQuotes, if_pos hblank, ih (n + 1) hblanks, List.length_cons,
      Nat.add_right_comm, Nat.add_assoc]

lemma expectQuotes_opensBelow (case : Text) (c : Cursor) :
    OpensBelow case c (Dialect.expectQuotes case c).result
      (Dialect.expectQuotes case c).cursor := by
  obtain ⟨n, lines⟩ := c
  rw [Dialect.expectQuotes]
  rcases exists_first_not IsBlankLine lines with
    hblanks | ⟨blanks, line, rest, rfl, hblanks, hline⟩
  · have htaken := takeQuotes_append n [] hblanks
    rw [List.append_nil] at htaken
    simp only [htaken, Dialect.takeQuotes, Bool.false_eq_true, if_false]
    exact .atEnd hblanks
  · have htext : ¬ Text.trim line = [] := hline
    simp only [takeQuotes_append n _ hblanks, Dialect.takeQuotes, if_neg htext]
    by_cases hquotes : Text.contains Dialect.tripleQuote line = true
    · rw [if_pos hquotes]
      exact .quotes hblanks hline (contains_iff.mp hquotes)
    · rw [if_neg hquotes]
      exact .other hblanks hline (mt contains_iff.mpr hquotes)

/-- A header that ends its signature hands the lines below it on to the triple quote. -/
lemma expectOpening_of_ends {header : Text} (h : (Dialect.signatureStep 0 header).2 = true)
    (c : Cursor) :
    (Dialect.annotatedFunction.expectOpening header case c).result =
        (Dialect.expectQuotes case c).result ∧
      (Dialect.annotatedFunction.expectOpening header case c).cursor =
        (Dialect.expectQuotes case c).cursor := by
  have hskip (n : ℕ) (lines : List Text) :
      Dialect.skipSignature 0 header n lines = (true, ⟨n, lines⟩) := by
    cases lines with
    | nil => rw [Dialect.skipSignature, h]
    | cons next rest =>
      rw [Dialect.skipSignature]
      simp only [h, if_true]
  have hread : Yields (Dialect.expectSignature header case) c () c := by
    simp only [Yields, Dialect.expectSignature, hskip, if_true]
    exact ⟨trivial, trivial⟩
  exact bind_of_yields hread

/-- Below a header that does not end its signature, a triple quote belongs to the signature. -/
lemma expectOpening_of_goesOn {header : Text} (h : (Dialect.signatureStep 0 header).2 = false) :
    (Dialect.annotatedFunction.expectOpening header case ⟨0, [['"', '"', '"']]⟩).result =
      .error (.docStringStart case) := by
  have hquotes (depth : Int) : (Dialect.signatureStep depth ['"', '"', '"']).2 = false := by
    have hlast : (Text.trimEnd (Dialect.codePart ['"', '"', '"'])).getLast? ≠ some ':' := by decide
    rw [Dialect.signatureStep]
    simp only [hlast, decide_false, Bool.and_false]
  have hskip : (Dialect.skipSignature 0 header 0 [['"', '"', '"']]).1 = false := by
    rw [Dialect.skipSignature]
    simp only [h, Bool.false_eq_true, if_false]
    exact hquotes _
  have hread : (Dialect.expectSignature header case ⟨0, [['"', '"', '"']]⟩).result =
      .error (.docStringStart case) := by
    simp only [Dialect.expectSignature, hskip, Bool.false_eq_true, if_false]
  exact (bind_of_error _ hread).1

lemma OpensBelow.result_quotes {n : ℕ} {below : List Text} {result : Except GrammarError Unit}
    {c : Cursor} (h : OpensBelow case ⟨n, ['"', '"', '"'] :: below⟩ result c) : result = .ok () := by
  have hnot : ¬ IsBlankLine ['"', '"', '"'] := show ¬ Text.trim ['"', '"', '"'] = [] by decide
  generalize hstart : (⟨n, ['"', '"', '"'] :: below⟩ : Cursor) = start at h
  cases h with
  | quotes => rfl
  | @other n blanks rest line hblanks hline hquotes =>
    have hlines := congrArg Cursor.rest hstart
    cases blanks with
    | nil =>
      obtain ⟨rfl, -⟩ := List.cons.inj hlines
      exact absurd List.infix_rfl hquotes
    | cons blank blanks =>
      obtain ⟨rfl, -⟩ := List.cons.inj hlines
      exact absurd (hblanks _ List.mem_cons_self) hnot
  | @atEnd n blanks hblanks =>
    obtain rfl := congrArg Cursor.rest hstart
    exact absurd (hblanks _ List.mem_cons_self) hnot

/-- A signature is complete on a line whose code ends in a colon and whose bare parentheses are
closed. The lines below it are its opening exactly if its quoted parts do not open more parentheses
than they close; otherwise the signature goes on over them. -/
theorem opening_below_signature_iff (header case : Text)
    (hcolon : (Text.trimEnd (Dialect.codePart header)).getLast? = some ':')
    (hparens : Dialect.openParens (bareCode header) = 0) :
    (∀ c, OpensBelow case c (Dialect.annotatedFunction.expectOpening header case c).result
        (Dialect.annotatedFunction.expectOpening header case c).cursor) ↔
      Dialect.openParens (quotedCode header) ≤ 0 := by
  have hdepth : Dialect.openParens (Text.trimEnd (Dialect.codePart header)) =
      Dialect.openParens (quotedCode header) := by
    rw [openParens_trimEnd, Dialect.codePart, openParens_codeFrom, ← bareCode, ← quotedCode,
      hparens, Int.zero_add]
  have hends : (Dialect.signatureStep 0 header).2 =
      decide (Dialect.openParens (quotedCode header) ≤ 0) := by
    rw [Dialect.signatureStep]
    simp only [hdepth, hcolon, Int.zero_add, decide_true, Bool.and_true]
  constructor
  · intro hopens
    by_contra hopen
    have hresult := (hopens ⟨0, [['"', '"', '"']]⟩).result_quotes
    rw [expectOpening_of_goesOn (hends.trans (decide_eq_false hopen))] at hresult
    cases hresult
  · intro hclosed c
    obtain ⟨hresult, hcursor⟩ := expectOpening_of_ends (hends.trans (decide_eq_true hclosed)) c
    rw [hresult, hcursor]
    exact expectQuotes_opensBelow case c

def payHeader : Text := "def test_NEW_pay(mark=')#'):  # ("

/-- Neither the quoted parenthesis nor the comment keeps this signature open. -/
theorem opening_below_pay :
    (Text.trimEnd (Dialect.codePart payHeader)).getLast? = some ':' ∧
      Dialect.openParens (bareCode payHeader) = 0 ∧
      ∀ c, OpensBelow "test_NEW_pay" c
        (Dialect.annotatedFunction.expectOpening payHeader "test_NEW_pay" c).result
        (Dialect.annotatedFunction.expectOpening payHeader "test_NEW_pay" c).cursor := by
  have hcolon : (Text.trimEnd (Dialect.codePart payHeader)).getLast? = some ':' := by decide
  have hparens : Dialect.openParens (bareCode payHeader) = 0 := by decide
  exact ⟨hcolon, hparens, (opening_below_signature_iff _ _ hcolon hparens).mpr (by decide)⟩

def openHeader : Text := "def test_NEW_pay(mark='('):"

/-- The quoted parenthesis keeps this signature open: it swallows the triple quote and the line
below it. -/
theorem opening_swallowed :
    (Text.trimEnd (Dialect.codePart openHeader)).getLast? = some ':' ∧
      Dialect.openParens (bareCode openHeader) = 0 ∧
      (Dialect.annotatedFunction.expectOpening openHeader "test_NEW_pay"
        ⟨0, [['"', '"', '"'], "Description:"]⟩).cursor = ⟨2, []⟩ ∧
      ¬ OpensBelow "test_NEW_pay" ⟨0, [['"', '"', '"'], "Description:"]⟩
        (Dialect.annotatedFunction.expectOpening openHeader "test_NEW_pay"
          ⟨0, [['"', '"', '"'], "Description:"]⟩).result
        (Dialect.annotatedFunction.expectOpening openHeader "test_NEW_pay"
          ⟨0, [['"', '"', '"'], "Description:"]⟩).cursor := by
  have hresult : (Dialect.annotatedFunction.expectOpening openHeader "test_NEW_pay"
      ⟨0, [['"', '"', '"'], "Description:"]⟩).result = .error (.docStringStart "test_NEW_pay") := rfl
  refine ⟨by decide, by decide, rfl, fun hopens => ?_⟩
  have hok := hopens.result_quotes
  rw [hresult] at hok
  cases hok

end TestCatalog.Proofs
