import EngineFuzz.Path
import EngineFuzz.Proofs.LossyText
import EngineFuzz.Proofs.UuidText
/-!
# Segments of paths

A file is found by following the segments of its path, so what matters about the path of a
harness is which segments it has.  They are those of the program's path up to the last, without
idle segments at their end, and then the name of the harness.  That name is one segment: it
holds no slash, because the only slashes that could get into it would have to be in the name of
the program.

* `segmentsOf_append_slash`, `segmentsOf_joinSegments` — dividing undoes joining;
* `exists_parent?_eq` — how the parent of a path is written;
* `notMem_siblingName`, `isName_siblingName` — the name of a harness is a segment, and a name;
* `exists_segmentsOf_sibling` — the segments of the path of a harness.
-/

namespace EngineFuzz.Path

open Text (Bytes)

section Division

variable {bytes first last segment : Bytes} {segments : List Bytes}

/-- There is always a segment. -/
theorem segmentsOf_ne_nil (bytes : Bytes) : segmentsOf bytes ≠ [] := by
  cases bytes with
  | nil => exact List.cons_ne_nil _ _
  | cons b rest =>
    rw [segmentsOf]
    split
    · exact List.cons_ne_nil _ _
    · split <;> exact List.cons_ne_nil _ _

/-- A slash ends a segment. -/
@[simp] theorem segmentsOf_slash_cons (bytes : Bytes) :
    segmentsOf (slash :: bytes) = [] :: segmentsOf bytes := by
  cases hrest : segmentsOf bytes with
  | nil => exact absurd hrest (segmentsOf_ne_nil bytes)
  | cons first others => simp [segmentsOf, hrest]

/-- An octet that is no slash belongs to the first segment. -/
theorem segmentsOf_cons {b : UInt8} (hb : b ≠ slash) (h : segmentsOf bytes = first :: segments) :
    segmentsOf (b :: bytes) = (b :: first) :: segments := by
  simp [segmentsOf, h, hb]

/-- Octets without a slash are one segment. -/
theorem segmentsOf_of_notMem (h : slash ∉ bytes) : segmentsOf bytes = [bytes] := by
  induction bytes with
  | nil => rfl
  | cons b rest ih =>
    rw [List.mem_cons, not_or] at h
    exact segmentsOf_cons (Ne.symm h.1) (ih h.2)

/-- At a slash the octets are divided into two parts, each with its segments. -/
theorem segmentsOf_append_slash (before after : Bytes) :
    segmentsOf (before ++ slash :: after) = segmentsOf before ++ segmentsOf after := by
  induction before with
  | nil => exact segmentsOf_slash_cons after
  | cons b rest ih =>
    by_cases hb : b = slash
    · rw [hb, List.cons_append, segmentsOf_slash_cons, segmentsOf_slash_cons, ih, List.cons_append]
    · cases hrest : segmentsOf rest with
      | nil => exact absurd hrest (segmentsOf_ne_nil rest)
      | cons first others =>
        rw [hrest, List.cons_append] at ih
        rw [List.cons_append, segmentsOf_cons hb ih, segmentsOf_cons hb hrest, List.cons_append]

/-- Joining puts a slash before every segment but the first. -/
theorem joinSegments_cons (first : Bytes) (h : segments ≠ []) :
    joinSegments (first :: segments) = first ++ slash :: joinSegments segments := by
  cases segments with
  | nil => exact absurd rfl h
  | cons second others => simp [joinSegments, List.intercalate]

/-- A segment more at the end comes after a slash. -/
theorem joinSegments_append_singleton (h : segments ≠ []) (last : Bytes) :
    joinSegments (segments ++ [last]) = joinSegments segments ++ slash :: last := by
  induction segments with
  | nil => exact absurd rfl h
  | cons first others ih =>
    by_cases hnil : others = []
    · simp [hnil, joinSegments, List.intercalate]
    · have hne : others ++ [last] ≠ [] := List.append_ne_nil_of_left_ne_nil hnil _
      rw [List.cons_append, joinSegments_cons first hne, ih hnil, joinSegments_cons first hnil,
        List.append_assoc, List.cons_append]

/-- What is joined ends in the last segment. -/
theorem exists_joinSegments_eq_append (segments : List Bytes) (last : Bytes) :
    ∃ start, joinSegments (segments ++ [last]) = start ++ last := by
  by_cases hnil : segments = []
  · exact ⟨[], by simp [hnil, joinSegments]⟩
  · refine ⟨joinSegments segments ++ [slash], ?_⟩
    rw [joinSegments_append_singleton hnil, List.append_assoc, List.singleton_append]

/-- Dividing undoes joining. -/
theorem segmentsOf_joinSegments (hne : segments ≠ []) (h : ∀ s ∈ segments, slash ∉ s) :
    segmentsOf (joinSegments segments) = segments := by
  induction segments with
  | nil => exact absurd rfl hne
  | cons first others ih =>
    obtain ⟨hfirst, hothers⟩ := List.forall_mem_cons.mp h
    by_cases hnil : others = []
    · rw [hnil]
      simpa [joinSegments] using segmentsOf_of_notMem hfirst
    · rw [joinSegments_cons first hnil, segmentsOf_append_slash, segmentsOf_of_notMem hfirst,
        ih hnil hothers, List.singleton_append]

/-- No segment holds a slash. -/
theorem slash_notMem_of_mem_segmentsOf (h : segment ∈ segmentsOf bytes) : slash ∉ segment := by
  induction bytes generalizing segment with
  | nil =>
    rw [List.mem_singleton.mp h]
    exact List.not_mem_nil
  | cons b rest ih =>
    by_cases hb : b = slash
    · rw [hb, segmentsOf_slash_cons] at h
      rcases List.mem_cons.mp h with rfl | h
      · exact List.not_mem_nil
      · exact ih h
    · cases hrest : segmentsOf rest with
      | nil => exact absurd hrest (segmentsOf_ne_nil rest)
      | cons first others =>
        rw [segmentsOf_cons hb hrest] at h
        rw [hrest] at ih
        rcases List.mem_cons.mp h with rfl | h
        · exact List.not_mem_cons_of_ne_of_not_mem (Ne.symm hb) (ih List.mem_cons_self)
        · exact ih (List.mem_cons_of_mem first h)

/-- The octets of the segments are those of the path, slashes apart. -/
theorem exists_mem_segmentsOf_iff {b : UInt8} (hb : b ≠ slash) :
    (∃ segment ∈ segmentsOf bytes, b ∈ segment) ↔ b ∈ bytes := by
  induction bytes with
  | nil => simp [segmentsOf]
  | cons c rest ih =>
    by_cases hc : c = slash
    · simp [hc, ih, hb]
    · cases hrest : segmentsOf rest with
      | nil => exact absurd hrest (segmentsOf_ne_nil rest)
      | cons first others =>
        rw [hrest] at ih
        rw [segmentsOf_cons hc hrest]
        simp only [List.mem_cons, exists_eq_or_imp] at ih ⊢
        rw [or_assoc, ih]

end Division

section Trimming

variable {segments : List Bytes} {first last : Bytes}

/-- What is trimmed off is idle. -/
theorem exists_trimEnd_append (segments : List Bytes) :
    ∃ idles, segments = trimEnd segments ++ idles ∧ ∀ s ∈ idles, isIdle s = true := by
  refine ⟨(segments.reverse.takeWhile isIdle).reverse, ?_, fun s hs => ?_⟩
  · rw [trimEnd, ← List.reverse_append, List.takeWhile_append_dropWhile, List.reverse_reverse]
  · exact List.all_eq_true.mp List.all_takeWhile s (List.mem_reverse.mp hs)

/-- Nothing is trimmed off a segment that is not idle. -/
theorem trimEnd_append_singleton (segments : List Bytes) (h : isIdle last = false) :
    trimEnd (segments ++ [last]) = segments ++ [last] := by
  simp [trimEnd, h]

/-- The last segment that trimming leaves is not idle. -/
theorem isIdle_of_getLast?_trimEnd (h : (trimEnd segments).getLast? = some last) :
    isIdle last = false := by
  rw [trimEnd, List.getLast?_reverse] at h
  have hhead := List.head?_dropWhile_not isIdle segments.reverse
  rw [h] at hhead
  simpa using hhead

/-- The last segment that trimming leaves, in front of which others are left. -/
theorem isIdle_of_trimEnd_eq {front : List Bytes} (h : trimEnd segments = front ++ [last]) :
    isIdle last = false :=
  isIdle_of_getLast?_trimEnd (by rw [h]; exact List.getLast?_concat)

/-- An idle segment is trimmed off when nothing is left after it. -/
theorem trimEnd_cons_of_isIdle (h : isIdle first = true) (segments : List Bytes) :
    trimEnd (first :: segments)
      = if trimEnd segments = [] then [] else first :: trimEnd segments := by
  by_cases hnil : segments.reverse.dropWhile isIdle = []
  · simp [trimEnd, List.dropWhile_append, hnil, h]
  · simp [trimEnd, List.dropWhile_append, hnil]

end Trimming

section Siblings

/-- A segment that stands for a name. -/
def IsName (segment : Bytes) : Prop := isIdle segment = false ∧ segment ≠ [dot, dot]

variable {path : Path} {before : List Bytes} {last : Bytes}

/-- A path is absolute if an empty segment stands before others. -/
theorem isAbsolute_iff :
    path.isAbsolute = true ↔ ∃ second others, segmentsOf path.bytes = [] :: second :: others := by
  obtain ⟨bytes⟩ := path
  cases bytes with
  | nil => simp [isAbsolute, segmentsOf]
  | cons b rest =>
    obtain ⟨first, others, hrest⟩ := List.exists_cons_of_ne_nil (segmentsOf_ne_nil rest)
    by_cases hb : b = slash
    · simp [isAbsolute, hb, hrest]
    · simp [isAbsolute, hb, segmentsOf_cons hb hrest]

/-- Octets without a slash are a relative path. -/
theorem isAbsolute_of_notMem {bytes : Bytes} (h : slash ∉ bytes) : isAbsolute ⟨bytes⟩ = false :=
  decide_eq_false fun hhead => h (List.mem_of_mem_head? hhead)

private theorem append_singleton_of_cons {α : Type} {x y : α} {xs ys : List α} (hne : ys ≠ [])
    (h : x :: ys = xs ++ [y]) : ∃ inner, xs = x :: inner ∧ ys = inner ++ [y] := by
  cases xs with
  | nil => exact absurd (List.cons.inj h).2 hne
  | cons z zs =>
    obtain ⟨rfl, htail⟩ := List.cons.inj h
    exact ⟨zs, rfl, htail⟩

/-- How the head of a path and the segments after it make up its segments, when the last one is a
name. -/
theorem body_cases (h : segmentsOf path.bytes = before ++ [last]) (hlast : IsName last) :
    (∃ inner, before = [] :: inner ∧ path.isAbsolute = true ∧ path.leadBytes = [slash] ∧
      path.body = inner ++ [last]) ∨
    (∃ inner, before = [dot] :: inner ∧ path.isAbsolute = false ∧ path.leadBytes = [dot] ∧
      path.body = [] :: inner ++ [last]) ∨
    (path.isAbsolute = false ∧ path.leadBytes = [] ∧ path.body = before ++ [last]) := by
  obtain ⟨bytes⟩ := path
  cases bytes with
  | nil => exact Or.inr (Or.inr ⟨rfl, rfl, h⟩)
  | cons b rest =>
    by_cases hslash : b = slash
    · subst hslash
      rw [segmentsOf_slash_cons] at h
      obtain ⟨inner, hbefore, hrest⟩ := append_singleton_of_cons (segmentsOf_ne_nil rest) h
      refine Or.inl ⟨inner, hbefore, ?_, ?_, ?_⟩
      · simp [isAbsolute]
      · simp [leadBytes, lead]
      · simpa [body, leadBytes, lead] using hrest
    have hrelative : isAbsolute ⟨b :: rest⟩ = false := by simp [isAbsolute, hslash]
    by_cases hdot : b = dot ∧ rest.head?.all (· = slash) = true
    · obtain ⟨rfl, hhead⟩ := hdot
      cases rest with
      | nil =>
        -- a path that is a dot ends in an idle segment
        obtain ⟨rfl, rfl⟩ : before = [] ∧ [dot] = last := by
          have hone : [[dot]] = before ++ [last] := h
          cases before with
          | nil => exact ⟨rfl, (List.cons.inj hone).1⟩
          | cons x xs => simp at hone
        exact absurd hlast.1 (by decide)
      | cons c rest =>
        obtain rfl : c = slash := by simpa using hhead
        have hdotted : segmentsOf (dot :: slash :: rest) = [dot] :: segmentsOf rest :=
          segmentsOf_cons hslash (segmentsOf_slash_cons rest)
        rw [hdotted] at h
        obtain ⟨inner, hbefore, hrest⟩ := append_singleton_of_cons (segmentsOf_ne_nil rest) h
        refine Or.inr (Or.inl ⟨inner, hbefore, hrelative, ?_, ?_⟩)
        · simp [leadBytes, lead, hslash]
        · simp [body, leadBytes, lead, hslash, hrest]
    · have hlead : lead ⟨b :: rest⟩ = none := by
        simp only [lead, hslash, if_false]
        rw [if_neg (by simpa using hdot)]
      refine Or.inr (Or.inr ⟨hrelative, ?_, ?_⟩)
      · simp [leadBytes, hlead]
      · simpa [body, leadBytes, hlead] using h

/-- The file name of a path is its last segment. -/
theorem fileName?_eq (h : segmentsOf path.bytes = before ++ [last]) (hlast : IsName last) :
    path.fileName? = some last := by
  have hcomponent : componentOf last = some (.name last) := by
    simp [componentOf, hlast.1, hlast.2]
  have hbody : ∃ inner, path.body = inner ++ [last] := by
    rcases body_cases h hlast with ⟨inner, -, -, -, hb⟩ | ⟨inner, -, -, -, hb⟩ | ⟨-, -, hb⟩
    · exact ⟨inner, hb⟩
    · exact ⟨[] :: inner, hb⟩
    · exact ⟨before, hb⟩
  obtain ⟨inner, hinner⟩ := hbody
  simp [fileName?, components, hinner, hcomponent, ← List.append_assoc]

/-- The parent of a path that ends in a segment with a meaning is what stands before that
segment, without idle segments at the end. -/
theorem parent?_of_body {inner : List Bytes} (h : path.body = inner ++ [last])
    (hlast : isIdle last = false) :
    path.parent? = some ⟨path.leadBytes ++ joinSegments (trimEnd inner)⟩ := by
  rw [parent?, h, trimEnd_append_singleton inner hlast]
  split
  · rename_i hnil
    simp at hnil
  · rename_i x xs hcons
    rw [hcons.symm, List.dropLast_concat]

/-- The parent of a path is written as the segments before the name, idle ones at their end
apart. -/
theorem exists_parent?_eq (h : segmentsOf path.bytes = before ++ [last]) (hlast : IsName last) :
    ∃ front kept idles, path.parent? = some ⟨front ++ joinSegments kept⟩ ∧
      (∀ s ∈ idles, isIdle s = true) ∧ (∀ s, kept.getLast? = some s → s ≠ []) ∧
      (front = [] ∧ path.isAbsolute = false ∧ before = kept ++ idles ∨
        front = [slash] ∧ path.isAbsolute = true ∧ before = [] :: kept ++ idles) := by
  have hne : ∀ inner s, (trimEnd inner).getLast? = some s → s ≠ [] := by
    rintro inner s hs rfl
    exact absurd (isIdle_of_getLast?_trimEnd hs) (by decide)
  rcases body_cases h hlast with ⟨inner, hbefore, habs, hlead, hb⟩ |
    ⟨inner, hbefore, habs, hlead, hb⟩ | ⟨habs, hlead, hb⟩
  · obtain ⟨idles, hsplit, hidle⟩ := exists_trimEnd_append inner
    refine ⟨[slash], trimEnd inner, idles, ?_, hidle, hne inner, Or.inr ⟨rfl, habs, ?_⟩⟩
    · rw [parent?_of_body hb hlast.1, hlead]
    · rw [hbefore, List.cons_append, ← hsplit]
  · obtain ⟨idles, hsplit, hidle⟩ := exists_trimEnd_append inner
    refine ⟨[], [dot] :: trimEnd inner, idles, ?_, hidle, ?_, Or.inl ⟨rfl, habs, ?_⟩⟩
    · -- the dot is the first segment, and the only one if nothing is left of the others
      rw [parent?_of_body hb hlast.1, hlead, trimEnd_cons_of_isIdle rfl]
      by_cases hnil : trimEnd inner = []
      · simp [hnil, joinSegments]
      · rw [if_neg hnil, joinSegments_cons _ hnil, joinSegments_cons _ hnil]
        simp
    · intro s hs
      by_cases hnil : trimEnd inner = []
      · rw [hnil] at hs
        rintro rfl
        exact absurd hs (by decide)
      · rw [List.getLast?_cons, List.getLast?_eq_some_getLast hnil] at hs
        exact hne inner s (by rw [List.getLast?_eq_some_getLast hnil, ← hs]; rfl)
    · rw [hbefore, List.cons_append, ← hsplit]
  · obtain ⟨idles, hsplit, hidle⟩ := exists_trimEnd_append before
    refine ⟨[], trimEnd before, idles, ?_, hidle, hne before, Or.inl ⟨rfl, habs, hsplit⟩⟩
    rw [parent?_of_body hb hlast.1, hlead]

/-- A name is joined to a directory as one more segment. -/
theorem join_name {front name : Bytes} {kept : List Bytes} (hfront : front = [] ∨ front = [slash])
    (hkept : ∀ s, kept.getLast? = some s → s ≠ [] ∧ slash ∉ s) (hname : slash ∉ name) :
    join ⟨front ++ joinSegments kept⟩ ⟨name⟩ = ⟨front ++ joinSegments (kept ++ [name])⟩ := by
  rw [join, isAbsolute_of_notMem hname, if_neg Bool.false_ne_true]
  rcases List.eq_nil_or_concat kept with rfl | ⟨others, final, rfl⟩
  · rcases hfront with rfl | rfl <;> simp [joinSegments]
  · rw [List.concat_eq_append] at hkept ⊢
    obtain ⟨hfinal, hnoslash⟩ := hkept final List.getLast?_concat
    obtain ⟨start, hstart⟩ := exists_joinSegments_eq_append others final
    have hlast : (front ++ joinSegments (others ++ [final])).getLast? =
        some (final.getLast hfinal) := by
      rw [hstart, ← List.append_assoc, List.getLast?_append, List.getLast?_eq_some_getLast hfinal,
        Option.some_or]
    have hnot : final.getLast hfinal ≠ slash := fun heq =>
      hnoslash (heq ▸ List.getLast_mem hfinal)
    have hne : others ++ [final] ≠ [] := List.append_ne_nil_of_right_ne_nil _ (List.cons_ne_nil _ _)
    simp only [hlast, Option.all_some, decide_eq_true_eq, if_neg hnot]
    rw [joinSegments_append_singleton hne name, List.append_assoc]

/-- Both parts of a name are made of its octets. -/
theorem mem_of_mem_divideName (name : Bytes) (b : UInt8) :
    (b ∈ (divideName name).1 → b ∈ name) ∧ ∀ after, (divideName name).2 = some after →
      b ∈ after → b ∈ name := by
  simp only [divideName]
  split
  · refine ⟨List.mem_of_mem_take, fun after hafter hb => ?_⟩
    rw [← Option.some.inj hafter] at hb
    exact List.mem_reverse.mp ((List.takeWhile_prefix _).subset (List.mem_reverse.mp hb))
  · exact ⟨id, fun after hafter => nomatch hafter⟩

/-- An identifier is written in octets of hyphens and digits. -/
theorem notMem_hyphenated_of_ne {b : UInt8} (hlow : b.toNat < 0x80)
    (hb : ('-' :: Uuid.hexDigits).all fun c => c.toNat ≠ b.toNat) (u : Uuid) :
    b ∉ Text.bytesOf u.hyphenated := by
  intro hmem
  rw [Uuid.hyphenated, Text.bytesOf_ofList] at hmem
  obtain ⟨c, hc, hcb⟩ := List.mem_flatMap.mp hmem
  have hmember : c ∈ '-' :: Uuid.hexDigits := by
    rcases Uuid.mem_hyphenatedChars hc with rfl | hdigit
    · exact List.mem_cons_self
    · exact List.mem_cons_of_mem _ hdigit
  exact of_decide_eq_true (List.all_eq_true.mp hb c hmember)
    (Text.toNat_of_mem_utf8EncodeChar hcb hlow)

/-- An identifier is written without zero octets and slashes. -/
theorem notMem_hyphenated (u : Uuid) {b : UInt8} (hb : b = 0 ∨ b = slash) :
    b ∉ Text.bytesOf u.hyphenated := by
  rcases hb with rfl | rfl <;> exact notMem_hyphenated_of_ne (by decide) (by decide) u

/-- The name of a harness holds no zero octet and no slash, unless the name of its program does. -/
theorem notMem_siblingName {b : UInt8} (h : path.fileName? = some last) (suffix : Uuid)
    (hb : b = 0 ∨ b = slash) (hlast : b ∉ last) : b ∉ path.siblingName suffix := by
  have hlow : b.toNat < 0x80 := by rcases hb with rfl | rfl <;> decide
  have hunder : b ≠ 0x5f := by rcases hb with rfl | rfl <;> decide
  have hdot : b ≠ dot := by rcases hb with rfl | rfl <;> decide
  obtain ⟨hstem, hextension⟩ := mem_of_mem_divideName last b
  have hfirst : b ∉ Text.bytesOf (Text.lossy (divideName last).1) := fun hmem =>
    hlast (hstem (Text.mem_of_mem_lossy hmem hlow))
  simp only [siblingName, stem?, fileExtension?, h, Option.map_some, Option.getD_some,
    Option.bind_some]
  cases hsecond : (divideName last).2 with
  | none =>
    simp [hfirst, hunder, notMem_hyphenated suffix hb]
  | some after =>
    have hafter : b ∉ Text.bytesOf (Text.lossy after) := fun hmem =>
      hlast (hextension after hsecond (Text.mem_of_mem_lossy hmem hlow))
    simp [hfirst, hunder, notMem_hyphenated suffix hb, hdot, hafter]

/-- The name of a harness is a name: it has an underscore in it. -/
theorem isName_siblingName (path : Path) (suffix : Uuid) : IsName (path.siblingName suffix) := by
  have hunder : 0x5f ∈ path.siblingName suffix := by simp [siblingName]
  constructor
  · refine Bool.eq_false_iff.mpr fun hidle => ?_
    simp only [isIdle, Bool.or_eq_true, decide_eq_true_eq] at hidle
    rcases hidle with hnil | hone
    · rw [hnil] at hunder
      exact absurd hunder (by decide)
    · rw [hone] at hunder
      exact absurd hunder (by decide)
  · intro hdots
    rw [hdots] at hunder
    exact absurd hunder (by decide)

/-- The path of a harness leads through the directory of its program, by the same segments but for
idle ones, to the name of the harness. -/
theorem exists_segmentsOf_sibling (h : segmentsOf path.bytes = before ++ [last])
    (hlast : IsName last) (suffix : Uuid) :
    ∃ kept idles, before = kept ++ idles ∧ (∀ s ∈ idles, isIdle s = true) ∧
      (path.sibling suffix).isAbsolute = path.isAbsolute ∧
      segmentsOf (path.sibling suffix).bytes = kept ++ [path.siblingName suffix] := by
  have hnoslash : ∀ s ∈ before ++ [last], slash ∉ s := by
    rw [← h]
    exact fun s hs => slash_notMem_of_mem_segmentsOf hs
  have hname : slash ∉ path.siblingName suffix :=
    notMem_siblingName (fileName?_eq h hlast) suffix (Or.inr rfl) (hnoslash last (by simp))
  obtain ⟨front, kept, idles, hparent, hidle, hends, hfront⟩ := exists_parent?_eq h hlast
  have hkept : ∀ s ∈ kept, slash ∉ s := by
    intro s hs
    refine hnoslash s (List.mem_append_left _ ?_)
    rcases hfront with ⟨-, -, hbefore⟩ | ⟨-, -, hbefore⟩ <;> rw [hbefore] <;> simp [hs]
  have hjoined : segmentsOf (joinSegments (kept ++ [path.siblingName suffix]))
      = kept ++ [path.siblingName suffix] := by
    refine segmentsOf_joinSegments (by simp) fun s hs => ?_
    rcases List.mem_append.mp hs with hs | hs
    · exact hkept s hs
    · rwa [List.mem_singleton.mp hs]
  have hsibling : path.sibling suffix
      = ⟨front ++ joinSegments (kept ++ [path.siblingName suffix])⟩ := by
    rw [sibling, hparent]
    refine join_name ?_ (fun s hs => ⟨hends s hs, hkept s (List.mem_of_getLast? hs)⟩) hname
    exact hfront.imp And.left And.left
  rw [hsibling]
  rcases hfront with ⟨rfl, habs, hbefore⟩ | ⟨rfl, habs, hbefore⟩
  · refine ⟨kept, idles, hbefore, hidle, ?_, ?_⟩
    · -- an absolute path would begin with an empty segment, and so would the program's
      rw [habs]
      refine Bool.eq_false_iff.mpr fun habsolute => Bool.eq_false_iff.mp habs ?_
      rw [isAbsolute_iff] at habsolute ⊢
      obtain ⟨second, others, heq⟩ := habsolute
      rw [List.nil_append, hjoined] at heq
      cases kept with
      | nil => exact nomatch (List.cons.inj heq).2
      | cons first rest =>
        obtain ⟨rfl, -⟩ := List.cons.inj heq
        have hne : rest ++ idles ++ [last] ≠ [] := by simp
        obtain ⟨second', others', hcons⟩ := List.exists_cons_of_ne_nil hne
        refine ⟨second', others', ?_⟩
        rw [h, hbefore, List.cons_append, List.cons_append, hcons]
    · rw [List.nil_append, hjoined]
  · refine ⟨[] :: kept, idles, hbefore, hidle, ?_, ?_⟩
    · rw [habs]
      exact decide_eq_true rfl
    · rw [List.singleton_append, segmentsOf_slash_cons, hjoined, List.cons_append]

end Siblings

end EngineFuzz.Path
