import TestCatalog.Dialect.Filter
import TestCatalog.Proofs.IssuedLines

/-!
# Continued lines

The lines of a source that continue one another form a span, and each span is joined to one line of
the block. A span begins on its first line that holds more than the backslashes that continue it.
-/

namespace TestCatalog.Proofs

/-! ## Spans -/

/-- Whether a line goes on with the next one. -/
def goesOn (line : Text) : Bool :=
  line.getLast? = some '\\'

/-- What a continued line holds before its backslashes. -/
def waiting (line : Text) : Text :=
  Text.trimEnd (Text.dropEndWhile (· = '\\') line)

/-- The lines, cut behind each one that does not go on. -/
def spans : List Text → List (List Text)
  | [] => []
  | line :: rest =>
    if goesOn line then
      match spans rest with
      | [] => [[line]]
      | span :: others => (line :: span) :: others
    else [line] :: spans rest

/-- The lines of a span, joined behind `lead`. -/
def joinSpan (lead : Text) : List Text → Text
  | [] => lead
  | line :: rest => if goesOn line then joinSpan (waiting (lead ++ line) ++ " ") rest else lead ++ line

/-- The lines that come of the spans behind a line that waits. -/
def joinBehind (lead : Text) : List (List Text) → List Text
  | [] => [lead]
  | span :: others => joinSpan lead span :: others.map (joinSpan [])

/-- The lines of the span that hold nothing but backslashes, up to its first other line. -/
def bareLines (span : List Text) : List Text :=
  span.dropLast.takeWhile fun line => waiting line = []

/-- The numbers of the lines that the spans begin on, where the first span stands at `i`. -/
def startsFrom (i : ℕ) : List (List Text) → List ℕ
  | [] => []
  | span :: others => (i + (bareLines span).length) :: startsFrom (i + span.length) others

/-- The lines of a span, before the lines `rest`. -/
inductive Span : (span rest : List Text) → Prop where
  | single {line : Text} (rest : List Text) (h : goesOn line = false) : Span [line] rest
  | last {line : Text} (h : goesOn line = true) : Span [line] []
  | more {line : Text} {span rest : List Text} (h : goesOn line = true) (below : Span span rest) :
      Span (line :: span) rest

lemma Span.ne_nil {span rest : List Text} (h : Span span rest) : span ≠ [] := by
  cases h <;> exact List.cons_ne_nil _ _

lemma spans_append {span rest : List Text} (h : Span span rest) :
    spans (span ++ rest) = span :: spans rest := by
  induction h with
  | single rest h => rw [List.singleton_append, spans, h]; rfl
  | last h => simp [spans, h]
  | more h below ih => rw [List.cons_append, spans, h, ih]; rfl

lemma exists_span (line : Text) (ls : List Text) :
    ∃ span rest, line :: ls = span ++ rest ∧ Span span rest := by
  induction ls generalizing line with
  | nil =>
    cases h : goesOn line with
    | false => exact ⟨[line], [], rfl, .single [] h⟩
    | true => exact ⟨[line], [], rfl, .last h⟩
  | cons next ls ih =>
    cases h : goesOn line with
    | false => exact ⟨[line], next :: ls, rfl, .single _ h⟩
    | true =>
      obtain ⟨span, rest, hls, hspan⟩ := ih next
      exact ⟨line :: span, rest, congrArg (line :: ·) hls, .more h hspan⟩

lemma span_induction {motive : List Text → Prop} (hnil : motive [])
    (hspan : ∀ span rest, Span span rest → motive rest → motive (span ++ rest)) (ls : List Text) :
    motive ls := by
  induction hlen : ls.length using Nat.strongRecOn generalizing ls with
  | ind len ih =>
    subst hlen
    cases ls with
    | nil => exact hnil
    | cons line ls =>
      obtain ⟨span, rest, hls, h⟩ := exists_span line ls
      have hlt : rest.length < (line :: ls).length := by
        have hpos := List.length_pos_iff.mpr h.ne_nil
        rw [hls, List.length_append]
        omega
      rw [hls]
      exact hspan span rest h (ih rest.length hlt rest rfl)

/-! ## Joined spans -/

lemma reverse_continuedHead (line : Text) :
    (Dialect.continuedHead line.reverse).reverse = waiting line := by
  unfold waiting Text.trimEnd Text.dropEndWhile
  rw [List.reverse_reverse]
  rfl

lemma isContinued_append (lead line : Text) (hlead : goesOn lead = false) :
    Dialect.isContinued (lead ++ line).reverse = goesOn line := by
  unfold Dialect.isContinued goesOn
  unfold goesOn at hlead
  rw [List.head?_reverse, List.getLast?_append]
  cases h : line.getLast? with
  | none => exact hlead
  | some c => rfl

lemma joinBehind_cons (lead line : Text) (ls : List Text) :
    joinBehind lead (spans (line :: ls)) =
      if goesOn line = true then joinBehind (waiting (lead ++ line) ++ " ") (spans ls)
      else (lead ++ line) :: (spans ls).map (joinSpan []) := by
  rw [spans]
  cases hgoes : goesOn line with
  | true =>
    cases hspans : spans ls with
    | nil => simp [joinBehind, joinSpan, hgoes]
    | cons span others => simp [joinBehind, joinSpan, hgoes]
  | false => simp [joinBehind, joinSpan, hgoes]

lemma joinBehind_nil (line : Text) (ls : List Text) :
    joinBehind [] (spans (line :: ls)) = (spans (line :: ls)).map (joinSpan []) := by
  obtain ⟨span, rest, hls, hspan⟩ := exists_span line ls
  rw [hls, spans_append hspan]
  rfl

/-- The line that waits grows backwards, so that the text before its continuation is reversed. -/
lemma joinFrom_eq (clean : Text → Text) (joined ls : List Text) :
    (∀ head, Dialect.joinFrom clean joined (some head) ls =
      joined.reverse ++ joinBehind (head.reverse ++ " ") (spans (ls.map clean))) ∧
    Dialect.joinFrom clean joined none ls =
      joined.reverse ++ (spans (ls.map clean)).map (joinSpan []) := by
  induction ls generalizing joined with
  | nil =>
    refine ⟨fun head => ?_, by simp [Dialect.joinFrom, spans]⟩
    have hspace : Dialect.grow head " " = ' ' :: head := rfl
    rw [Dialect.joinFrom, hspace]
    simp [spans, joinBehind]
  | cons raw ls ih =>
    have hstep (lead : Text) (hlead : goesOn lead = false) :
        (if Dialect.isContinued (lead ++ clean raw).reverse then
            Dialect.joinFrom clean joined
              (some (Dialect.continuedHead (lead ++ clean raw).reverse)) ls
          else Dialect.joinFrom clean ((lead ++ clean raw) :: joined) none ls) =
        joined.reverse ++ joinBehind lead (spans (clean raw :: ls.map clean)) := by
      rw [isContinued_append lead _ hlead, joinBehind_cons]
      cases hgoes : goesOn (clean raw) with
      | true => rw [if_pos rfl, if_pos rfl, (ih joined).1, reverse_continuedHead]
      | false =>
        rw [if_neg (by simp), if_neg (by simp), (ih _).2, List.reverse_cons, List.append_assoc]
        rfl
    constructor
    · intro head
      have hlead : goesOn (head.reverse ++ " ") = false := by
        unfold goesOn
        rw [List.getLast?_append]
        rfl
      have hgrow : Dialect.grow (Dialect.grow head " ") (clean raw) =
          (head.reverse ++ " " ++ clean raw).reverse := by
        simp [Dialect.grow]
      have h := hstep (head.reverse ++ " ") hlead
      rw [Dialect.joinFrom]
      simp only [hgrow, List.reverse_reverse]
      exact h
    · have hgrow : Dialect.grow [] (clean raw) = ([] ++ clean raw).reverse := by
        simp [Dialect.grow]
      have h := hstep [] rfl
      rw [joinBehind_nil] at h
      rw [Dialect.joinFrom]
      simp only [hgrow, List.reverse_reverse]
      exact h

/-- Joining continued lines joins each of their spans. -/
theorem joinContinued_eq (clean : Text → Text) (ls : List Text) :
    Dialect.joinContinued clean ls = (spans (ls.map clean)).map (joinSpan []) :=
  (joinFrom_eq clean [] ls).2

/-! ## Where spans begin -/

lemma Span.goesOn_dropLast {span rest : List Text} (h : Span span rest) :
    ∀ line ∈ span.dropLast, goesOn line = true := by
  induction h with
  | single rest h => simp
  | last h => simp
  | @more line span rest h below ih =>
    intro line' hline'
    rw [List.dropLast_cons_of_ne_nil below.ne_nil] at hline'
    rcases List.mem_cons.mp hline' with rfl | hline'
    · exact h
    · exact ih line' hline'

lemma length_bareLines_lt {span : List Text} (h : span ≠ []) :
    (bareLines span).length < span.length := by
  have hle : (bareLines span).length ≤ span.dropLast.length := (List.takeWhile_prefix _).length_le
  have hpos := List.length_pos_iff.mpr h
  rw [List.length_dropLast] at hle
  omega

lemma Span.exists_eq {span rest : List Text} (h : Span span rest) :
    ∃ line more, span = bareLines span ++ line :: more := by
  have hleads : bareLines span <+: span :=
    (List.takeWhile_prefix _).trans (List.dropLast_prefix span)
  obtain ⟨tail, htail⟩ := hleads
  cases tail with
  | nil =>
    have hlt := length_bareLines_lt h.ne_nil
    have hlen := congrArg List.length htail
    rw [List.append_nil] at hlen
    omega
  | cons line more => exact ⟨line, more, htail.symm⟩

lemma mem_bareLines {span rest : List Text} (h : Span span rest) {line : Text}
    (hline : line ∈ bareLines span) : goesOn line = true ∧ waiting line = [] := by
  have hmem : line ∈ span.dropLast := (List.takeWhile_prefix _).subset hline
  exact ⟨h.goesOn_dropLast line hmem, by simpa using List.mem_takeWhile_imp hline⟩

lemma startsFrom_spans {span rest : List Text} (h : Span span rest) (i : ℕ) :
    startsFrom i (spans (span ++ rest)) =
      (i + (bareLines span).length) :: startsFrom (i + span.length) (spans rest) := by
  rw [spans_append h]
  rfl

lemma le_of_mem_startsFrom {i j : ℕ} {ss : List (List Text)} (h : j ∈ startsFrom i ss) : i ≤ j := by
  induction ss generalizing i with
  | nil => cases h
  | cons span others ih =>
    rcases List.mem_cons.mp h with rfl | h
    · omega
    · have hle := ih h
      omega

lemma pairwise_startsFrom (i : ℕ) (ls : List Text) :
    (startsFrom i (spans ls)).Pairwise (· < ·) := by
  induction ls using span_induction generalizing i with
  | hnil => exact .nil
  | hspan span rest h ih =>
    rw [startsFrom_spans h]
    refine List.pairwise_cons.mpr ⟨fun j hj => ?_, ih _⟩
    have hle := le_of_mem_startsFrom hj
    have hlt := length_bareLines_lt h.ne_nil
    omega

/-- Bare lines leave nothing but a blank in front of the line that follows them. -/
lemma joinSpan_bare {bare : List Text} (hbare : ∀ line ∈ bare, goesOn line = true ∧ waiting line = [])
    {lead : Text} (hlead : AllBlank lead) :
    ∃ lead', AllBlank lead' ∧ ∀ rest, joinSpan lead (bare ++ rest) = joinSpan lead' rest := by
  induction bare generalizing lead with
  | nil => exact ⟨lead, hlead, fun rest => rfl⟩
  | cons line bare ih =>
    obtain ⟨hgoes, hline⟩ := hbare line List.mem_cons_self
    have hwaiting : waiting (lead ++ line) = [] := by
      unfold waiting at hline ⊢
      rw [trimEnd_eq_nil_iff] at hline ⊢
      rw [dropEndWhile_append]
      by_cases hnil : Text.dropEndWhile (· = '\\') line = []
      · have hsub : Text.dropEndWhile (· = '\\') lead <+: lead :=
          List.reverse_suffix.mp (by simpa [Text.dropEndWhile] using List.dropWhile_suffix _)
        rw [if_pos hnil]
        exact fun c hc => hlead c (hsub.subset hc)
      · rw [if_neg hnil]
        exact allBlank_append.mpr ⟨hlead, hline⟩
    have hspace : AllBlank " " := by decide
    obtain ⟨lead', hlead', hrest⟩ :=
      ih (fun line hline => hbare line (List.mem_cons_of_mem _ hline)) hspace
    refine ⟨lead', hlead', fun rest => ?_⟩
    rw [List.cons_append, joinSpan, if_pos hgoes, hwaiting]
    exact hrest rest

/-- The line on which a span begins stands behind blanks on the line that comes of the span. -/
lemma Span.joinSpan_eq {span rest : List Text} (h : Span span rest) : ∃ lead, AllBlank lead ∧
    ∀ ls, joinSpan [] (bareLines span ++ ls) = joinSpan lead ls :=
  joinSpan_bare (fun _ hline => mem_bareLines h hline) allBlank_nil

/-- The line with the number `k` of the block is joined from the source line on which its span
begins and from lines that follow it. -/
theorem exists_line_of_start {ls : List Text} {i j k : ℕ}
    (h : (startsFrom i (spans ls))[k]? = some j) :
    ∃ lead line more, AllBlank lead ∧ i ≤ j ∧ ls[j - i]? = some line ∧
      ((spans ls).map (joinSpan []))[k]? = some (joinSpan lead (line :: more)) := by
  induction ls using span_induction generalizing i k with
  | hnil => cases h
  | hspan span rest hspan ih =>
    rw [startsFrom_spans hspan] at h
    rw [spans_append hspan, List.map_cons]
    cases k with
    | zero =>
      rw [List.getElem?_cons_zero] at h
      cases h
      obtain ⟨line, more, heq⟩ := hspan.exists_eq
      obtain ⟨lead, hlead, hjoin⟩ := hspan.joinSpan_eq
      refine ⟨lead, line, more, hlead, Nat.le_add_right _ _, ?_, ?_⟩
      · rw [Nat.add_sub_cancel_left, heq, List.append_assoc, ← heq,
          List.getElem?_append_right (Nat.le_refl _), Nat.sub_self]
        rfl
      · rw [List.getElem?_cons_zero, ← hjoin, ← heq]
    | succ k =>
      rw [List.getElem?_cons_succ] at h
      obtain ⟨lead, line, more, hlead, hle, hline, hjoin⟩ := ih h
      refine ⟨lead, line, more, hlead, by omega, ?_, ?_⟩
      · have hnumber : j - i - span.length = j - (i + span.length) := by omega
        rw [List.getElem?_append_right (by omega), hnumber]
        exact hline
      · rw [List.getElem?_cons_succ]
        exact hjoin

/-! ## Issued spans -/

section Issued

variable {d : Dialect} {number : Text → ℕ} {Due : ℕ → Text → Prop}

lemma goesOn_respelled {t t' : Text} (h : Respelled d t t') : goesOn t' = goesOn t := by
  unfold goesOn
  rw [getLast?_respelled h]

lemma Issued.waiting {n m : ℕ} {t t' : Text} (h : Issued d n m t t') :
    Issued d n m (waiting t) (waiting t') := by
  have hbackslash (c : Char) (hc : Inert c) : decide (c = '\\') = false := by
    have hne : c ≠ '\\' := fun h => hc.2 (by simp [h])
    simpa using hne
  exact (h.dropEndWhile hbackslash).dropEndWhile fun c hc => hc.1

lemma Issued.joinSpan_lead {n m : ℕ} {lead lead' : Text} (h : Issued d n m lead lead')
    (ls : List Text) : Issued d n m (joinSpan lead ls) (joinSpan lead' ls) := by
  induction ls generalizing lead lead' with
  | nil => exact h
  | cons line ls ih =>
    have hline := h.append line
    rw [joinSpan, joinSpan]
    by_cases hgoes : goesOn line = true
    · rw [if_pos hgoes, if_pos hgoes]
      exact ih (hline.waiting.append " ")
    · rw [if_neg hgoes, if_neg hgoes]
      exact hline

lemma Issued.joinSpan {n m : ℕ} {line line' lead : Text} (h : Issued d n m line line')
    (hlead : AllBlank lead) (ls : List Text) :
    Issued d n m (joinSpan lead (line :: ls)) (joinSpan lead (line' :: ls)) := by
  have hline := h.append_left hlead
  have hsame := goesOn_respelled h.respelled
  rw [Proofs.joinSpan, Proofs.joinSpan, hsame]
  by_cases hgoes : goesOn line = true
  · rw [if_pos hgoes, if_pos hgoes]
    exact (hline.waiting.append " ").joinSpan_lead ls
  · rw [if_neg hgoes, if_neg hgoes]
    exact hline

lemma Span.issued {span span' rest rest' : List Text} {i : ℕ} (h : Span span rest)
    (hissued : IssuedLines d number Due i span span') (hrest : rest = [] → rest' = []) :
    Span span' rest' := by
  have hgoesOn {k : ℕ} {line line' : Text} (h : IssuedLines d number Due k [line] [line']) :
      goesOn line' = goesOn line := goesOn_respelled h.respelled_line
  induction h generalizing i span' with
  | single rest h =>
    obtain ⟨line', others, rfl, hline, below⟩ := hissued.exists_cons
    cases below
    exact .single rest' ((hgoesOn hline).trans h)
  | last h =>
    obtain rfl := hrest rfl
    obtain ⟨line', others, rfl, hline, below⟩ := hissued.exists_cons
    cases below
    exact .last ((hgoesOn hline).trans h)
  | more h below ih =>
    obtain ⟨line', others, rfl, hline, hbelow⟩ := hissued.exists_cons
    exact .more ((hgoesOn hline).trans h) (ih hbelow hrest)

/-- A span whose first line that is not bare is its only line that can be issued. -/
lemma Span.joinSpan_issued {span span' rest : List Text} {i k : ℕ} (h : Span span rest)
    (hissued : IssuedLines d number Due i span span')
    (hfirst : ∀ j name, i ≤ j → j < i + span.length → Due j name →
      j = i + (bareLines span).length) :
    IssuedLines d number (fun _ => Due (i + (bareLines span).length)) k [joinSpan [] span]
      [joinSpan [] span'] := by
  obtain ⟨line, more, heq⟩ := h.exists_eq
  obtain ⟨lead, hlead, hjoin⟩ := h.joinSpan_eq
  have hlen : span.length = (bareLines span).length + (more.length + 1) := by
    conv_lhs => rw [heq]
    rw [List.length_append, List.length_cons]
  rw [heq] at hissued
  obtain ⟨bare', tail', rfl, hbare, htail⟩ := hissued.split
  obtain rfl := hbare.eq_of_not_due fun j name hj hj' hdue => by
    have hstart := hfirst j name hj (by omega) hdue
    omega
  cases htail with
  | keep hkeep hmore =>
    obtain rfl := hmore.eq_of_not_due fun j name hj hj' hdue => by
      have hstart := hfirst j name (by omega) (by omega) hdue
      omega
    rw [← heq]
    exact .keep hkeep (.nil _)
  | issue hdue hline hmore =>
    obtain rfl := hmore.eq_of_not_due fun j name hj hj' hdue' => by
      have hstart := hfirst j name (by omega) (by omega) hdue'
      omega
    refine .issue hdue ?_ (.nil _)
    conv_lhs => rw [heq]
    rw [hjoin, hjoin]
    exact hline.joinSpan hlead _

/-- If names are due on the lines where spans begin alone, then issuing these lines issues the lines
that come of their spans. -/
theorem IssuedLines.joinSpans {starts : List ℕ} {i k : ℕ} {ls ls' : List Text}
    (h : IssuedLines d number Due i ls ls')
    (hdue : ∀ j name, i ≤ j → Due j name → j ∈ startsFrom i (spans ls))
    (hstarts : ∀ j, starts[k + j]? = (startsFrom i (spans ls))[j]?) :
    IssuedLines d number (fun k name => ∃ j, starts[k]? = some j ∧ Due j name) k
      ((spans ls).map (joinSpan [])) ((spans ls').map (joinSpan [])) := by
  induction ls using span_induction generalizing i k ls' with
  | hnil =>
    cases h
    exact .nil k
  | hspan span rest hspan ih =>
    obtain ⟨span', rest', rfl, hissued, hbelow⟩ := h.split
    have hspan' : Span span' rest' := by
      refine hspan.issued hissued fun hnil => ?_
      subst hnil
      cases hbelow
      rfl
    have hlt := length_bareLines_lt hspan.ne_nil
    have hcases (j : ℕ) (name : Text) (hj : i ≤ j) (h : Due j name) :
        j = i + (bareLines span).length ∨ j ∈ startsFrom (i + span.length) (spans rest) := by
      have hmem := hdue j name hj h
      rw [startsFrom_spans hspan] at hmem
      exact List.mem_cons.mp hmem
    have hfirst (j : ℕ) (name : Text) (hj : i ≤ j) (hj' : j < i + span.length) (h : Due j name) :
        j = i + (bareLines span).length := by
      rcases hcases j name hj h with hstart | hmem
      · exact hstart
      · have hle := le_of_mem_startsFrom hmem
        omega
    have hstart : starts[k]? = some (i + (bareLines span).length) := by
      have hzero := hstarts 0
      rwa [startsFrom_spans hspan, List.getElem?_cons_zero, Nat.add_zero] at hzero
    have hrest : IssuedLines d number (fun k name => ∃ j, starts[k]? = some j ∧ Due j name) (k + 1)
        ((spans rest).map (joinSpan [])) ((spans rest').map (joinSpan [])) := by
      refine ih hbelow (fun j name hj h => ?_) fun j => ?_
      · rcases hcases j name (by omega) h with hstart | hmem
        · omega
        · exact hmem
      · have hnext := hstarts (j + 1)
        rw [startsFrom_spans hspan, List.getElem?_cons_succ] at hnext
        rw [← hnext]
        congr 1
        omega
    rw [spans_append hspan, spans_append hspan', List.map_cons, List.map_cons]
    refine .cons ((hspan.joinSpan_issued hissued hfirst).congr fun j name hj hj' => ?_) hrest
    obtain rfl : j = k := by
      rw [List.length_singleton] at hj'
      omega
    rw [hstart]
    simp

end Issued

end TestCatalog.Proofs
