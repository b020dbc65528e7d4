import TestCatalog.Proofs.Acceptance

/-!
# Blocks put together

A case that was read does not change when lines are added below its block, so that assembling two
blocks that are put together is assembling the first and then the second.
-/

namespace TestCatalog.Proofs

variable {a : Assembler}

/-- The cases of a run come first when lines are added below it. -/
theorem readCases_run_append {c : Cursor} {run : List Taken} (h : Run a c run) (m : ℕ)
    (more : List Text) : (a.readCases ⟨m, c.rest ++ more⟩).result =
      (a.readCases ⟨0, more⟩).result.map (.concat (run.map Taken.parsed) ++ ·) := by
  induction h generalizing m with
  | done n =>
    have hempty := map_concat_nil (a.readCases ⟨0, more⟩).result
    exact (readCases_renumber 0 m more).trans hempty.symm
  | skip hkind below ih =>
    rw [List.cons_append, readCases_skip hkind]
    exact ih (m + 1)
  | @take n line rest kind body c run hkind hbody below ih =>
    obtain ⟨x, y, rfl, rfl⟩ := hbody.exists_lines (steady_readBody _ _ _ _).forward
    have hbody' := yields_body_elsewhere hbody (m + 1) (y ++ more)
    rw [List.cons_append, List.append_assoc, readCases_of_ok hkind hbody', ih, map_append_append]
    rfl

/-- Assembling is compositional: where the first block is assembled, both blocks together succeed
exactly if the second one does, with the cases of both in order, and they fail with its error. -/
theorem assemble_append {above : Text} {cases : ParsedCases}
    (h : (a.assemble above).value = .ok cases) (below : Text) :
    (a.assemble (above ++ '\n' :: below)).value =
      (a.assemble below).value.map (cases ++ ·) := by
  obtain ⟨run, hrun, rfl⟩ := assemble_eq_ok_iff.mp h
  obtain ⟨gap, hgap, hlines⟩ := blockLines_append above below
  rw [ofText_eq] at hrun
  have hbelow : (a.readCases ⟨0, gap ++ blockLines below⟩).result = (a.assemble below).value := by
    rcases hgap with rfl | rfl
    · rfl
    · exact readCases_blank 0 (blockLines below)
  show (a.readCases (Cursor.ofText _)).result = _
  rw [ofText_eq, hlines, List.append_assoc, ← hbelow]
  exact readCases_run_append hrun 0 _

theorem assemble_append_checkout :
    (cartAssembler.assemble checkoutBlock).value =
        .ok (.concat [checkoutDraft.trimmed.parsed cartAssembler]) ∧
      (cartAssembler.assemble (checkoutBlock ++ '\n' :: checkoutBlock)).value =
        .ok (.concat [checkoutDraft.trimmed.parsed cartAssembler] ++
          .concat [checkoutDraft.trimmed.parsed cartAssembler]) := by
  refine ⟨assemble_checkoutBlock, ?_⟩
  rw [assemble_append assemble_checkoutBlock checkoutBlock, assemble_checkoutBlock]
  rfl

end TestCatalog.Proofs
