import TestCatalog.Proofs.Walks

/-!
# The order of paths

Paths are ordered component by component. The path of a place below a folder has the components of
the folder and then the names of the location, so that a walk comes to the paths in their order.
-/

namespace TestCatalog.Proofs

section Paths

variable {here path : Path} {name first : Text} {more : List Text}

lemma components_eq (hpieces : path.spelling.splitOn '/' = first :: more)
    (hne : first ≠ [] ∨ more ≠ []) : path.components =
      (if first = [] then [.root] else if first = "." then [.current] else []) ++
        (first :: more).filterMap Path.componentOfPiece? := by
  unfold Path.components
  rw [hpieces]
  cases first with
  | cons c first => rfl
  | nil =>
    obtain ⟨second, more, rfl⟩ := List.exists_cons_of_ne_nil (hne.resolve_left (absurd rfl))
    rfl

lemma componentOfPiece?_name (hname : IsPathName name) :
    Path.componentOfPiece? name = some (.normal name) := by
  obtain ⟨hnil, hdot, hdots⟩ := hname
  rw [Path.componentOfPiece?, if_neg (not_or.mpr ⟨hnil, hdot⟩), if_neg hdots]

/-- A last name is a last component, also where a slash at the end is in front of it. -/
lemma components_concat {last : List Text} (hlast : last = [] ∨ last = [[]])
    (hne : first ≠ [] ∨ more ++ last ≠ [])
    (hhere : here.spelling.splitOn '/' = first :: (more ++ last))
    (hpath : path.spelling.splitOn '/' = first :: (more ++ [name])) (hname : IsPathName name) :
    path.components = here.components ++ [.normal name] := by
  have hidle : last.filterMap Path.componentOfPiece? = [] := by
    rcases hlast with rfl | rfl <;> rfl
  rw [components_eq hhere hne, components_eq hpath (.inr (by simp)), ← List.cons_append,
    ← List.cons_append, List.filterMap_append, List.filterMap_append, hidle,
    List.filterMap_cons_some (componentOfPiece?_name hname), List.filterMap_nil, List.append_nil,
    List.append_assoc]

lemma splitOn_append_slash (hslash : '/' ∉ name) (s : Text) :
    (s ++ '/' :: name).splitOn '/' = s.splitOn '/' ++ [name] := by
  rw [List.splitOn_append_cons_self s name, List.splitOn_eq_singleton hslash]

/-- A name alone is one component. -/
lemma components_name (hname : IsPathName name) (hslash : '/' ∉ name) :
    (Path.mk name).components = [.normal name] := by
  rw [components_eq (List.splitOn_eq_singleton hslash) (.inl hname.1), if_neg hname.1,
    if_neg hname.2.1, List.filterMap_cons_some (componentOfPiece?_name hname)]
  rfl

/-- The slash at the end of a folder ends an empty piece, which the name takes the place of. -/
lemma components_append_of_slash (hname : IsPathName name) (hslash : '/' ∉ name)
    (hend : here.spelling.getLast? = some '/') :
    (Path.mk (here.spelling ++ name)).components = here.components ++ [.normal name] := by
  obtain ⟨s, hs⟩ := List.getLast?_eq_some_iff.mp hend
  obtain ⟨first, more, hfirst⟩ := List.exists_cons_of_ne_nil (List.splitOn_ne_nil '/' s)
  have hhere : here.spelling.splitOn '/' = first :: (more ++ [[]]) := by
    rw [hs, List.splitOn_append_cons_self s [], hfirst]
    rfl
  refine components_concat (.inr rfl) (.inr (by simp)) hhere ?_ hname
  rw [hs, List.append_assoc, List.singleton_append, splitOn_append_slash hslash, hfirst,
    List.cons_append]

lemma components_append_slash (hname : IsPathName name) (hslash : '/' ∉ name)
    (hne : here.spelling ≠ []) :
    (Path.mk (here.spelling ++ '/' :: name)).components = here.components ++ [.normal name] := by
  obtain ⟨first, more, hfirst⟩ :=
    List.exists_cons_of_ne_nil (List.splitOn_ne_nil '/' here.spelling)
  have hspelled : first ≠ [] ∨ more ++ [] ≠ [] := by
    by_contra hnone
    simp only [ne_eq, List.append_nil, not_or, not_not] at hnone
    refine hne ?_
    rw [← join_splitOn here.spelling, hfirst, hnone.1, hnone.2]
    rfl
  refine components_concat (.inl rfl) hspelled (by rw [hfirst, List.append_nil]) ?_ hname
  rw [splitOn_append_slash hslash, hfirst, List.cons_append]

lemma components_join (hname : IsPathName name) (hslash : '/' ∉ name) :
    (here.join ⟨name⟩).components = here.components ++ [.normal name] := by
  have hrelative : (Path.mk name).isAbsolute = false := by
    refine Bool.eq_false_iff.mpr fun habsolute => hslash ?_
    exact (startsWith_iff.mp habsolute).subset List.mem_cons_self
  rw [Path.join, hrelative]
  simp only [Bool.false_eq_true, if_false]
  split_ifs with hend
  · rcases hend with hnil | hslashed
    · have hhere : here.components = [] := by
        rw [Path.components, hnil]
        rfl
      rw [hhere, hnil, List.nil_append]
      exact components_name hname hslash
    · exact components_append_of_slash hname hslash hslashed
  · have hjoined : here.spelling ++ "/" ++ name = here.spelling ++ '/' :: name :=
      List.append_assoc _ _ _
    rw [hjoined]
    exact components_append_slash hname hslash (not_or.mp hend).1

lemma key_pathTo {location : List Text} (h : ∀ name ∈ location, IsPathName name ∧ '/' ∉ name) :
    (pathTo here location).key = here.key ++ location.map ('\x03' :: ·) := by
  induction location generalizing here with
  | nil => exact (List.append_nil here.key).symm
  | cons name names ih =>
    obtain ⟨⟨hname, hslash⟩, hnames⟩ := List.forall_mem_cons.mp h
    have hkey : (here.join ⟨name⟩).key = here.key ++ ['\x03' :: name] := by
      rw [Path.key, components_join hname hslash, List.map_append]
      rfl
    rw [pathTo, List.foldl_cons, ← pathTo, ih hnames, hkey, List.append_assoc]
    rfl

end Paths

variable {entries : List (Text × FileTree)}

/-- The order of locations is that of the paths. -/
theorem paths_sorted (recursive : Bool) (h : WellOrdered (.folder entries)) (here : Path) :
    (placesBelow recursive entries).Pairwise fun place place' =>
      (pathTo here place.location).key < (pathTo here place'.location).key := by
  refine (placesBelow_sorted recursive h).imp_of_mem ?_
  intro place place' hmem hmem' hlt
  have hnames {place : TreePlace} (hmem : place ∈ placesBelow recursive entries) :
      ∀ name ∈ place.location, IsPathName name ∧ '/' ∉ name :=
    h.names_of_at? ((mem_placesBelow_iff h).mp hmem).2.2
  rw [key_pathTo (hnames hmem), key_pathTo (hnames hmem')]
  refine List.append_left_lt (List.map_lt (fun name name' hname => ?_) hlt)
  exact List.cons_lt_cons_iff.mpr (.inr ⟨rfl, hname⟩)

end TestCatalog.Proofs
