import EngineFuzz.Proofs.PathSegments
/-!
# Components of paths

Two spellings of a path are the same path if they have the same components.  What is done to
paths is said here in components: a name that is joined to a directory is one component more,
and the parent of a path has all its components but the last, however many slashes and idle
segments there are in between or at the end.  Only the head of a path needs care, since a dot
counts there and nowhere else.

* `Path.joinSegments_segmentsOf`, `Path.leadBytes_append_joinSegments` — how a path is put together;
* `Path.components_append_slash` — what a slash and more octets add;
* `Path.components_join` — a name in a directory;
* `Path.IsTrimmed`, `Path.exists_components_of_parent?`, `Path.exists_parent?_of_fileName?` —
  the parent of a path;
* `Path.parent?_join` — the parent of a name in a directory.
-/

namespace EngineFuzz.Path

open Text (Bytes)

variable {path directory : Path} {bytes rest name : Bytes} {segments : List Bytes}

/-! ### How a path is put together -/

/-- Joining undoes dividing. -/
theorem joinSegments_segmentsOf (bytes : Bytes) : joinSegments (segmentsOf bytes) = bytes := by
  induction bytes with
  | nil => rfl
  | cons b rest ih =>
    by_cases hb : b = slash
    · rw [hb, segmentsOf_slash_cons, joinSegments_cons [] (segmentsOf_ne_nil rest), ih,
        List.nil_append]
    · obtain ⟨first, others, hrest⟩ := List.exists_cons_of_ne_nil (segmentsOf_ne_nil rest)
      rw [hrest] at ih
      rw [segmentsOf_cons hb hrest, ← ih]
      by_cases hnil : others = []
      · simp [hnil, joinSegments]
      · rw [joinSegments_cons _ hnil, joinSegments_cons _ hnil, List.cons_append]

/-- Joining two rows of segments puts a slash between them. -/
theorem joinSegments_append {others : List Bytes} (h : segments ≠ []) (hothers : others ≠ []) :
    joinSegments (segments ++ others) = joinSegments segments ++ slash :: joinSegments others := by
  induction segments with
  | nil => exact absurd rfl h
  | cons first segments ih =>
    rw [List.cons_append, joinSegments_cons _ (List.append_ne_nil_of_right_ne_nil _ hothers)]
    by_cases hnil : segments = []
    · simp [hnil, joinSegments]
    · rw [ih hnil, joinSegments_cons _ hnil, List.append_assoc, List.cons_append]

/-- What is at the head of a path shows in its first two octets. -/
theorem lead_cons (b : UInt8) (rest : Bytes) : lead ⟨b :: rest⟩ =
    if b = slash then some .root
    else if b = dot && (rest.head?.all (· = slash)) then some .current else none := rfl

/-- The head of a path: none, the slash of an absolute path, or a dot. -/
theorem lead_cases (path : Path) :
    (path.lead = none ∧ path.leadBytes = []) ∨
    (path.lead = some .root ∧ path.leadBytes = [slash] ∧ ∃ rest, path.bytes = slash :: rest) ∨
    (path.lead = some .current ∧ path.leadBytes = [dot] ∧ ∃ rest, path.bytes = dot :: rest) := by
  obtain ⟨bytes⟩ := path
  cases bytes with
  | nil => exact .inl ⟨rfl, rfl⟩
  | cons b rest =>
    by_cases hslash : b = slash
    · subst hslash
      exact .inr (.inl ⟨by simp [lead], by simp [leadBytes, lead], rest, rfl⟩)
    by_cases hdot : b = dot && rest.head?.all (· = slash)
    · obtain rfl : b = dot := of_decide_eq_true (Bool.and_eq_true_iff.mp hdot).1
      have hlead : lead ⟨dot :: rest⟩ = some .current := by
        rw [lead_cons, if_neg hslash, if_pos hdot]
      exact .inr (.inr ⟨hlead, by simp [leadBytes, hlead], rest, rfl⟩)
    · have hlead : lead ⟨b :: rest⟩ = none := by
        rw [lead_cons, if_neg hslash, if_neg hdot]
      exact .inl ⟨hlead, by simp [leadBytes, hlead]⟩

/-- A path is its head and the segments behind it. -/
theorem leadBytes_append_joinSegments (path : Path) :
    path.leadBytes ++ joinSegments path.body = path.bytes := by
  rw [body, joinSegments_segmentsOf]
  rcases path.lead_cases with ⟨-, hlead⟩ | ⟨-, hlead, rest, hbytes⟩ | ⟨-, hlead, rest, hbytes⟩
  · rw [hlead]
    rfl
  · rw [hlead, hbytes]
    rfl
  · rw [hlead, hbytes]
    rfl

/-- The head of a path by itself has the head as its only component. -/
theorem components_leadBytes (path : Path) : components ⟨path.leadBytes⟩ = path.lead.toList := by
  rcases path.lead_cases with ⟨hlead, hbytes⟩ | ⟨hlead, hbytes, -⟩ | ⟨hlead, hbytes, -⟩ <;>
    rw [hlead, hbytes] <;> rfl

/-! ### Components of segments -/

/-- A segment stands for nothing exactly if it is idle. -/
theorem componentOf_eq_none_iff {segment : Bytes} :
    componentOf segment = none ↔ isIdle segment = true := by
  unfold componentOf
  split
  · simp_all
  · split <;> simp_all

/-- A segment that stands for a name is that name. -/
theorem componentOf_eq_name_iff {segment : Bytes} :
    componentOf segment = some (.name name) ↔ segment = name ∧ IsName name := by
  unfold componentOf IsName
  constructor
  · intro h
    split at h
    · cases h
    · next hidle =>
      split at h
      · cases h
      · next hparent =>
        obtain rfl : segment = name := Component.name.inj (Option.some.inj h)
        exact ⟨rfl, Bool.eq_false_iff.mpr hidle, hparent⟩
  · rintro ⟨rfl, hidle, hparent⟩
    rw [if_neg (Bool.eq_false_iff.mp hidle), if_neg hparent]

/-- Idle segments have no components. -/
theorem filterMap_componentOf_of_idle (h : ∀ s ∈ segments, isIdle s = true) :
    segments.filterMap componentOf = [] :=
  List.filterMap_eq_nil_iff.mpr fun s hs => componentOf_eq_none_iff.mpr (h s hs)

/-- What is trimmed off has no components. -/
theorem filterMap_componentOf_trimEnd (segments : List Bytes) :
    (trimEnd segments).filterMap componentOf = segments.filterMap componentOf := by
  obtain ⟨idles, hsplit, hidle⟩ := exists_trimEnd_append segments
  conv => rhs; rw [hsplit, List.filterMap_append, filterMap_componentOf_of_idle hidle,
    List.append_nil]

/-- What stands behind a slash does not change the head before it. -/
theorem lead_append_slash (h : bytes ≠ []) (rest : Bytes) :
    lead ⟨bytes ++ slash :: rest⟩ = lead ⟨bytes⟩ := by
  obtain ⟨b, more, rfl⟩ := List.exists_cons_of_ne_nil h
  cases more <;> simp [lead]

/-- What stands behind a slash does not change the octets of the head. -/
theorem leadBytes_append_slash (h : bytes ≠ []) (rest : Bytes) :
    leadBytes ⟨bytes ++ slash :: rest⟩ = leadBytes ⟨bytes⟩ := by
  obtain ⟨b, more, rfl⟩ := List.exists_cons_of_ne_nil h
  rw [leadBytes, lead_append_slash h]
  rfl

/-- What stands behind a slash is more segments. -/
theorem body_append_slash (h : bytes ≠ []) (rest : Bytes) :
    body ⟨bytes ++ slash :: rest⟩ = body ⟨bytes⟩ ++ segmentsOf rest := by
  have hlength : (leadBytes ⟨bytes⟩).length ≤ bytes.length := by
    unfold leadBytes
    split
    · exact List.length_take_le' _ _
    · exact Nat.zero_le _
  rw [body, leadBytes_append_slash h, List.drop_append_of_le_length hlength,
    segmentsOf_append_slash]
  rfl

/-- **A slash and more octets** add the components of the segments behind the slash, unless the
slash is at the head. -/
theorem components_append_slash (h : bytes ≠ []) (rest : Bytes) :
    components ⟨bytes ++ slash :: rest⟩ =
      components ⟨bytes⟩ ++ (segmentsOf rest).filterMap componentOf := by
  rw [components, lead_append_slash h, body_append_slash h, List.filterMap_append,
    ← List.append_assoc]
  rfl

/-! ### Names in directories -/

/-- A name alone has no head, and is one segment. -/
theorem lead_body_of_isName (hname : IsName name) (hslash : slash ∉ name) :
    lead ⟨name⟩ = none ∧ leadBytes ⟨name⟩ = [] ∧ body ⟨name⟩ = [] ++ [name] := by
  have hsegments : segmentsOf (Path.mk name).bytes = [] ++ [name] := segmentsOf_of_notMem hslash
  rcases body_cases hsegments hname with ⟨inner, hnil, -⟩ | ⟨inner, hnil, -⟩ | ⟨-, hbytes, hbody⟩
  · cases hnil
  · cases hnil
  · refine ⟨?_, hbytes, hbody⟩
    rcases lead_cases ⟨name⟩ with ⟨hlead, -⟩ | ⟨-, hsome, -⟩ | ⟨-, hsome, -⟩
    · exact hlead
    · rw [hbytes] at hsome
      cases hsome
    · rw [hbytes] at hsome
      cases hsome

/-- A name alone is a path of one component. -/
theorem components_name (hname : IsName name) (hslash : slash ∉ name) :
    components ⟨name⟩ = [.name name] := by
  obtain ⟨hlead, -, hbody⟩ := lead_body_of_isName hname hslash
  rw [components, hlead, hbody, List.nil_append, List.filterMap_cons,
    componentOf_eq_name_iff.mpr ⟨rfl, hname⟩]
  rfl

/-- **A name that is joined to a directory** is one component more. -/
theorem components_join (directory : Path) (hname : IsName name) (hslash : slash ∉ name) :
    (directory.join ⟨name⟩).components = directory.components ++ [.name name] := by
  have hone : (segmentsOf name).filterMap componentOf = [.name name] := by
    rw [segmentsOf_of_notMem hslash, List.filterMap_cons, componentOf_eq_name_iff.mpr ⟨rfl, hname⟩]
    rfl
  obtain ⟨bytes⟩ := directory
  rw [join, isAbsolute_of_notMem hslash, if_neg Bool.false_ne_true]
  rcases List.eq_nil_or_concat bytes with rfl | ⟨front, final, rfl⟩
  · exact components_name hname hslash
  rw [List.concat_eq_append]
  simp only [List.getLast?_concat, Option.all_some, decide_eq_true_eq]
  split
  · next hfinal =>
    subst hfinal
    rw [List.append_assoc, List.singleton_append]
    by_cases hfront : front = []
    · -- The directory is the root.
      subst hfront
      have hroot : components ⟨slash :: name⟩ = .root ::
          (segmentsOf name).filterMap componentOf := by
        simp [components, body, leadBytes, lead]
      rw [List.nil_append, List.nil_append, hroot, hone]
      rfl
    · have hnone : (segmentsOf []).filterMap componentOf = [] := rfl
      rw [components_append_slash hfront, components_append_slash hfront, hone, hnone,
        List.append_nil]
  · rw [components_append_slash (List.append_ne_nil_of_right_ne_nil _ (List.cons_ne_nil _ _)), hone]

/-! ### Parents -/

/-- Segments of which the last is not idle are written with some octets. -/
theorem joinSegments_trimEnd_ne_nil (h : trimEnd segments ≠ []) :
    joinSegments (trimEnd segments) ≠ [] := by
  obtain ⟨first, others, hcons⟩ := List.exists_cons_of_ne_nil h
  by_cases hnil : others = []
  · have hfirst : isIdle first = false :=
      isIdle_of_getLast?_trimEnd (by rw [hcons, hnil]; rfl)
    have hone : joinSegments [first] = first := by simp [joinSegments]
    rw [hcons, hnil, hone]
    rintro rfl
    exact absurd hfirst (by decide)
  · rw [hcons, joinSegments_cons _ hnil]
    exact List.append_ne_nil_of_right_ne_nil _ (List.cons_ne_nil _ _)

/-- A path that is cut before one of its segments keeps its head and the segments before the cut. -/
theorem lead_body_of_body_eq {front more : List Bytes} (h : path.body = front ++ more)
    (hfront : joinSegments front ≠ []) :
    lead ⟨path.leadBytes ++ joinSegments front⟩ = path.lead ∧
      leadBytes ⟨path.leadBytes ++ joinSegments front⟩ = path.leadBytes ∧
      body ⟨path.leadBytes ++ joinSegments front⟩ = front := by
  have hne : front ≠ [] := by
    rintro rfl
    exact hfront rfl
  have hslash : ∀ s ∈ path.body, slash ∉ s := fun s hs => slash_notMem_of_mem_segmentsOf hs
  have hlead : lead ⟨path.leadBytes ++ joinSegments front⟩ = path.lead ∧
      leadBytes ⟨path.leadBytes ++ joinSegments front⟩ = path.leadBytes := by
    by_cases hmore : more = []
    · rw [hmore, List.append_nil] at h
      rw [← h, leadBytes_append_joinSegments]
      exact ⟨rfl, rfl⟩
    · have hcut := leadBytes_append_joinSegments path
      rw [h, joinSegments_append hne hmore, ← List.append_assoc] at hcut
      have hbytes : path.leadBytes ++ joinSegments front ≠ [] :=
        List.append_ne_nil_of_right_ne_nil _ hfront
      have hlead := lead_append_slash hbytes (joinSegments more)
      have hleadBytes := leadBytes_append_slash hbytes (joinSegments more)
      rw [hcut] at hlead hleadBytes
      exact ⟨hlead.symm, hleadBytes.symm⟩
  refine ⟨hlead.1, hlead.2, ?_⟩
  rw [body, hlead.2, List.drop_left]
  refine segmentsOf_joinSegments hne fun s hs => hslash s ?_
  rw [h]
  exact List.mem_append_left more hs

/-- What is left of segments is trimmed already. -/
theorem trimEnd_trimEnd (segments : List Bytes) :
    trimEnd (trimEnd segments) = trimEnd segments := by
  rcases List.eq_nil_or_concat (trimEnd segments) with hnil | ⟨front, last, hlast⟩
  · rw [hnil]
    rfl
  · rw [List.concat_eq_append] at hlast
    have hidle : isIdle last = false := isIdle_of_trimEnd_eq hlast
    rw [hlast]
    exact trimEnd_append_singleton front hidle

/-- A path without idle segments at its end. -/
def IsTrimmed (path : Path) : Prop :=
  path.leadBytes ++ joinSegments (trimEnd path.body) = path.bytes

/-- A path is cut before the segments with a meaning that stand at its end: what is left is
trimmed, and has the components before the cut. -/
theorem isTrimmed_of_body_eq {inner more : List Bytes} (h : path.body = inner ++ more) :
    IsTrimmed ⟨path.leadBytes ++ joinSegments (trimEnd inner)⟩ ∧
      components ⟨path.leadBytes ++ joinSegments (trimEnd inner)⟩ =
        path.lead.toList ++ inner.filterMap componentOf := by
  by_cases hnil : trimEnd inner = []
  · have hnone : inner.filterMap componentOf = [] := by
      rw [← filterMap_componentOf_trimEnd, hnil]
      rfl
    have hhead : path.leadBytes ++ joinSegments [] = path.leadBytes := by simp [joinSegments]
    rw [hnil, hhead, components_leadBytes, hnone, List.append_nil]
    refine ⟨?_, rfl⟩
    rcases path.lead_cases
        with ⟨-, hbytes⟩ | ⟨-, hbytes, -⟩ | ⟨-, hbytes, -⟩ <;> rw [hbytes] <;> rfl
  · obtain ⟨idles, hidles, -⟩ := exists_trimEnd_append inner
    have hbody : path.body = trimEnd inner ++ (idles ++ more) := by
      rw [← List.append_assoc, ← hidles, h]
    obtain ⟨hlead, hleadBytes, hfront⟩ :=
      lead_body_of_body_eq hbody (joinSegments_trimEnd_ne_nil hnil)
    constructor
    · rw [IsTrimmed, hleadBytes, hfront, trimEnd_trimEnd]
    · rw [components, hlead, hfront, filterMap_componentOf_trimEnd]

/-- **The parent of a path** is trimmed, and has all components of the path but the last. -/
theorem exists_components_of_parent? (h : path.parent? = some directory) :
    directory.IsTrimmed ∧ ∃ last, path.components = directory.components ++ [last] := by
  unfold parent? at h
  split at h
  · -- Nothing is left but the head, which is a dot.
    next htrim =>
    split at h
    · next hlead =>
      obtain rfl := Option.some.inj h
      refine ⟨rfl, .current, ?_⟩
      rw [components, hlead, ← filterMap_componentOf_trimEnd, htrim]
      rfl
    · cases h
  next first others htrim =>
  obtain rfl := Option.some.inj h
  obtain ⟨inner, last, hinner⟩ : ∃ inner last, first :: others = inner ++ [last] :=
    ⟨_, _, (List.dropLast_concat_getLast (List.cons_ne_nil _ _)).symm⟩
  rw [hinner] at htrim
  rw [hinner, List.dropLast_concat]
  obtain ⟨idles, hidles, -⟩ := exists_trimEnd_append path.body
  have hbody : path.body = inner ++ (last :: idles) := by
    rw [hidles, htrim, List.append_assoc, List.singleton_append]
  obtain ⟨htrimmed, hcomponents⟩ := isTrimmed_of_body_eq hbody
  refine ⟨htrimmed, ?_⟩
  have hlast : isIdle last = false := isIdle_of_trimEnd_eq htrim
  obtain ⟨component, hcomponent⟩ : ∃ component, componentOf last = some component := by
    refine Option.ne_none_iff_exists'.mp fun hnone => ?_
    rw [componentOf_eq_none_iff, hlast] at hnone
    cases hnone
  refine ⟨component, ?_⟩
  rw [hcomponents, components, ← filterMap_componentOf_trimEnd, htrim, List.filterMap_append,
    List.filterMap_cons, hcomponent, ← List.append_assoc]
  rfl

/-- A trimmed path that ends in a slash is the root: no segment with a meaning ends in a slash. -/
theorem IsTrimmed.bytes_eq_slash (h : path.IsTrimmed) (hlast : path.bytes.getLast? = some slash) :
    path.bytes = [slash] := by
  rw [IsTrimmed] at h
  rcases List.eq_nil_or_concat (trimEnd path.body) with hnil | ⟨front, last, hkept⟩
  · have hbytes : path.leadBytes = path.bytes := by simpa [hnil, joinSegments] using h
    rcases path.lead_cases with ⟨-, hlead⟩ | ⟨-, hlead, -⟩ | ⟨-, hlead, -⟩
    · rw [← hbytes, hlead] at hlast
      cases hlast
    · rw [← hbytes, hlead]
    · rw [← hbytes, hlead] at hlast
      exact absurd hlast (by decide)
  · rw [List.concat_eq_append] at hkept
    have hidle : isIdle last = false := isIdle_of_trimEnd_eq hkept
    have hne : last ≠ [] := by
      rintro rfl
      exact absurd hidle (by decide)
    obtain ⟨idles, hidles, -⟩ := exists_trimEnd_append path.body
    have hmem : last ∈ path.body := by
      rw [hidles, hkept]
      simp
    obtain ⟨start, hstart⟩ := exists_joinSegments_eq_append front last
    rw [← h, hkept, hstart, ← List.append_assoc, List.getLast?_append,
      List.getLast?_eq_some_getLast hne, Option.some_or] at hlast
    have hslash : slash ∈ last := Option.some.inj hlast ▸ List.getLast_mem hne
    exact absurd hslash (slash_notMem_of_mem_segmentsOf hmem)

/-- **A name that is joined to a trimmed directory** has the directory as its parent. -/
theorem parent?_join (h : directory.IsTrimmed) (hname : IsName name) (hslash : slash ∉ name) :
    (directory.join ⟨name⟩).parent? = some directory := by
  rw [join, isAbsolute_of_notMem hslash, if_neg Bool.false_ne_true]
  obtain ⟨bytes⟩ := directory
  rcases List.eq_nil_or_concat bytes with rfl | ⟨front, final, rfl⟩
  · obtain ⟨-, hbytes, hbody⟩ := lead_body_of_isName hname hslash
    exact (parent?_of_body hbody hname.1).trans (by rw [hbytes]; rfl)
  rw [List.concat_eq_append] at h ⊢
  simp only [List.getLast?_concat, Option.all_some, decide_eq_true_eq]
  split
  · next hfinal =>
    subst hfinal
    have hroot := h.bytes_eq_slash List.getLast?_concat
    rw [show front ++ [slash] = [slash] from hroot]
    have hlead : lead ⟨slash :: name⟩ = some .root := by simp [lead_cons]
    have hbytes : leadBytes ⟨slash :: name⟩ = [slash] := by simp [leadBytes, hlead]
    have hbody : body ⟨slash :: name⟩ = [] ++ [name] := by
      rw [body, hbytes]
      exact segmentsOf_of_notMem hslash
    exact (parent?_of_body hbody hname.1).trans (by rw [hbytes]; rfl)
  · have hne : front ++ [final] ≠ [] := List.append_ne_nil_of_right_ne_nil _ (List.cons_ne_nil _ _)
    have hbody := body_append_slash hne name
    rw [segmentsOf_of_notMem hslash] at hbody
    rw [parent?_of_body hbody hname.1, leadBytes_append_slash hne, h]

/-- The file name of a path is its last component. -/
theorem fileName?_eq_some_iff :
    path.fileName? = some name ↔ path.components.getLast? = some (.name name) := by
  rw [fileName?]
  split
  · next bytes hlast => simp [hlast]
  · next hnone =>
    constructor
    · intro h
      cases h
    · exact fun h => absurd h (hnone name)

/-- **A path with a file name** has a parent, and is the name in it. -/
theorem exists_parent?_of_fileName? (h : path.fileName? = some name) :
    ∃ directory, path.parent? = some directory ∧
      path.components = directory.components ++ [.name name] := by
  rw [fileName?_eq_some_iff] at h
  cases hparent : path.parent? with
  | some directory =>
    obtain ⟨-, last, hcomponents⟩ := exists_components_of_parent? hparent
    rw [hcomponents, List.getLast?_concat] at h
    obtain rfl := Option.some.inj h
    exact ⟨directory, rfl, hcomponents⟩
  | none =>
    unfold parent? at hparent
    split at hparent
    · -- The head of a path is no name.
      next htrim =>
      have hlead : path.components = path.lead.toList := by
        rw [components, ← filterMap_componentOf_trimEnd, htrim]
        exact List.append_nil _
      rw [hlead] at h
      rcases path.lead_cases with ⟨hlead, -⟩ | ⟨hlead, -⟩ | ⟨hlead, -⟩ <;>
        rw [hlead] at h <;> cases h
    · cases hparent

end EngineFuzz.Path
