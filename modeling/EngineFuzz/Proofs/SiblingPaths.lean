import EngineFuzz.Proofs.InstrumentCommand
import EngineFuzz.Proofs.PathComponents
/-!
# The path of a harness

A harness is named after its program: an identifier is written into the name of the program,
behind its stem.  A name has at most one place where it is divided, and the identifier holds no
dot, so the name of the harness is divided where the name of the program was.  From it the
program and the identifier can be told again, since all identifiers are written in the same
number of octets.

The name of a harness is always text.  Of a program's name that is no text the harness may
therefore have some other stem and extension, but it never has the same name.

* `Text.isSome_strict_of_append_cons` — text that is cut at a dot is text on both sides;
* `Path.divideName_cases`, `Path.divideName_marked` — where a name is divided, with a mark and
  without;
* `Path.siblingName_eq` — the name of a harness;
* `Path.components_sibling`, `Path.parent?_sibling` — the directory of a harness;
* `Path.sibling_is_fresh` — the path of a harness against the path of its program.
-/

namespace EngineFuzz

section Texts

open Text (Bytes strict bytesOf)

/-- The octets of characters that are cut at an octet below 0x80 are cut between characters. -/
theorem Text.exists_of_flatMap_eq_append_cons {cs : List Char} {front after : Bytes} {b : UInt8}
    (hb : b.toNat < 0x80) (h : cs.flatMap String.utf8EncodeChar = front ++ b :: after) :
    ∃ before later : List Char, front = before.flatMap String.utf8EncodeChar ∧
      after = later.flatMap String.utf8EncodeChar := by
  induction cs generalizing front with
  | nil => simp at h
  | cons c cs ih =>
    rw [List.flatMap_cons, List.append_eq_append_iff] at h
    rcases h with ⟨more, hfront, hrest⟩ | ⟨more, hchar, hrest⟩
    · obtain ⟨before, later, hbefore, hlater⟩ := ih hrest
      exact ⟨c :: before, later, by rw [hfront, hbefore, List.flatMap_cons], hlater⟩
    · cases more with
      | nil =>
        -- The cut is right behind the first character.
        rw [List.append_nil] at hchar
        obtain ⟨before, later, hbefore, hlater⟩ := @ih [] hrest.symm
        exact ⟨[c], later, by simp [hchar], hlater⟩
      | cons first others =>
        obtain ⟨rfl, hafter⟩ := List.cons.inj hrest
        have hmem : b ∈ String.utf8EncodeChar c := by
          rw [hchar]
          simp
        have hc : c.toNat < 0x80 := by
          rw [Text.toNat_of_mem_utf8EncodeChar hmem hb]
          exact hb
        rw [Text.utf8EncodeChar_of_lt hc] at hchar
        obtain ⟨rfl, rfl⟩ : front = [] ∧ others = [] := by
          cases front with
          | nil => exact ⟨rfl, (List.cons.inj hchar).2.symm⟩
          | cons first rest => simp at hchar
        exact ⟨[], cs, rfl, hafter⟩

/-- The octets of characters are text. -/
theorem Text.isSome_strict_flatMap (cs : List Char) :
    (strict (cs.flatMap String.utf8EncodeChar)).isSome := by
  rw [← Text.bytesOf_ofList, Text.strict_bytesOf]
  rfl

/-- **Text that is cut at an octet below 0x80** is text on both sides. -/
theorem Text.isSome_strict_of_append_cons {front after : Bytes} {b : UInt8} (hb : b.toNat < 0x80)
    (h : (strict (front ++ b :: after)).isSome) :
    (strict front).isSome ∧ (strict after).isSome := by
  obtain ⟨text, htext⟩ := Option.isSome_iff_exists.mp h
  have hchars := Text.bytesOf_ofList text.toList
  rw [String.ofList_toList, Text.bytesOf_of_strict htext] at hchars
  obtain ⟨before, later, hbefore, hlater⟩ := Text.exists_of_flatMap_eq_append_cons hb hchars.symm
  rw [hbefore, hlater]
  exact ⟨Text.isSome_strict_flatMap before, Text.isSome_strict_flatMap later⟩

end Texts

namespace Path

open Text (Bytes strict bytesOf)

section Names

variable {name stem after mark : Bytes}

/-- A name is divided at its last dot, if that is not at the head. -/
theorem divideName_append (hstem : stem ≠ []) (hafter : dot ∉ after) :
    divideName (stem ++ dot :: after) = (stem, some after) := by
  have hbehind : ∀ b ∈ after.reverse, decide (b ≠ dot) = true := fun b hb =>
    decide_eq_true fun heq => hafter (heq ▸ List.mem_reverse.mp hb)
  have hlast : (stem ++ dot :: after).reverse.takeWhile (· ≠ dot) = after.reverse := by
    rw [List.reverse_append, List.reverse_cons, List.append_assoc,
      List.takeWhile_append_of_pos hbehind]
    simp
  have hlength := List.length_pos_iff.mpr hstem
  simp only [divideName, hlast, List.reverse_reverse, List.length_append, List.length_cons]
  rw [if_pos (by omega), show stem.length + (after.length + 1) - after.length - 1 =
    stem.length by omega, List.take_left]

/-- A name without a dot, or with one at its head only, is not divided. -/
theorem divideName_of_notMem (h : dot ∉ name.tail) : divideName name = (name, none) := by
  cases name with
  | nil => rfl
  | cons b rest =>
    have hbehind : ∀ c ∈ rest.reverse, decide (c ≠ dot) = true := fun c hc =>
      decide_eq_true fun heq => h (heq ▸ List.mem_reverse.mp hc)
    simp only [divideName, List.reverse_cons, List.takeWhile_append_of_pos hbehind]
    rw [if_neg (by simp)]

/-- A name is divided at a dot behind its head, or it has none there. -/
theorem divideName_cases (name : Bytes) :
    (∃ stem after, stem ≠ [] ∧ dot ∉ after ∧ name = stem ++ dot :: after) ∨ dot ∉ name.tail := by
  by_cases hdot : dot ∈ name.tail
  · obtain ⟨b, rest, rfl⟩ : ∃ b rest, name = b :: rest := by
      cases name with
      | nil => cases hdot
      | cons b rest => exact ⟨b, rest, rfl⟩
    -- The first dot from behind is the last one.
    obtain ⟨after, before, hsplit, hafter⟩ := List.eq_append_cons_of_mem (List.mem_reverse.mpr hdot)
    refine .inl ⟨b :: before.reverse, after.reverse, List.cons_ne_nil _ _,
      fun hmem => hafter (List.mem_reverse.mp hmem), ?_⟩
    have hrest : rest = (after ++ dot :: before).reverse := by
      rw [← hsplit, List.reverse_reverse, List.tail_cons]
    rw [hrest]
    simp
  · exact .inr hdot

/-- An extension as it stands in a name. -/
def dotted : Option Bytes → Bytes
  | none => []
  | some after => dot :: after

/-- The two parts of a name make the name. -/
theorem divideName_append_dotted (name : Bytes) :
    (divideName name).1 ++ dotted (divideName name).2 = name := by
  rcases divideName_cases name with ⟨stem, after, hstem, hafter, rfl⟩ | hdot
  · rw [divideName_append hstem hafter, dotted]
  · rw [divideName_of_notMem hdot, dotted, List.append_nil]

/-- **A name with a mark behind its stem** is divided where it was without the mark, if the mark
holds no dot. -/
theorem divideName_marked (hname : name ≠ []) (hmark : dot ∉ mark) :
    divideName ((divideName name).1 ++ mark ++ dotted (divideName name).2) =
      ((divideName name).1 ++ mark, (divideName name).2) := by
  rcases divideName_cases name with ⟨stem, after, hstem, hafter, rfl⟩ | hdot
  · rw [divideName_append hstem hafter, dotted]
    exact divideName_append (List.append_ne_nil_of_left_ne_nil hstem mark) hafter
  · rw [divideName_of_notMem hdot, dotted, List.append_nil]
    refine divideName_of_notMem ?_
    rw [List.tail_append_of_ne_nil hname, List.mem_append, not_or]
    exact ⟨hdot, hmark⟩

/-- Both parts of a name that is text are text. -/
theorem isSome_strict_divideName (h : (strict name).isSome) :
    (strict (divideName name).1).isSome ∧
      ∀ after, (divideName name).2 = some after → (strict after).isSome := by
  rcases divideName_cases name with ⟨stem, after, hstem, hafter, rfl⟩ | hdot
  · rw [divideName_append hstem hafter]
    obtain ⟨hfirst, hsecond⟩ := Text.isSome_strict_of_append_cons (by decide) h
    refine ⟨hfirst, fun other hother => ?_⟩
    rwa [← Option.some.inj hother]
  · rw [divideName_of_notMem hdot]
    exact ⟨h, fun after hafter => nomatch hafter⟩

end Names

section Marks

/-- What stands behind the stem in the name of a harness. -/
def mark (suffix : Uuid) : Bytes := bytesOf ("_" ++ suffix.hyphenated)

/-- A mark begins with an underscore. -/
theorem mark_eq (suffix : Uuid) : mark suffix = 0x5f :: bytesOf suffix.hyphenated := by
  rw [mark, Text.bytesOf_append]
  rfl

/-- A mark holds neither a dot nor a slash. -/
theorem notMem_mark {b : UInt8} (hb : b = dot ∨ b = slash) (suffix : Uuid) : b ∉ mark suffix := by
  rw [mark_eq, List.mem_cons, not_or]
  rcases hb
      with rfl | rfl <;> exact ⟨by decide, notMem_hyphenated_of_ne (by decide) (by decide) suffix⟩

/-- All marks are of the same length. -/
theorem length_mark (suffix : Uuid) : (mark suffix).length = 37 := by
  have hlow : ∀ c ∈ suffix.hyphenatedChars, (String.utf8EncodeChar c).length = 1 := by
    intro c hc
    have hmember : c ∈ '-' :: Uuid.hexDigits := List.mem_cons.mpr (Uuid.mem_hyphenatedChars hc)
    have hsmall : ('-' :: Uuid.hexDigits).all fun d => d.toNat < 0x80 := by decide
    rw [Text.utf8EncodeChar_of_lt (of_decide_eq_true (List.all_eq_true.mp hsmall c hmember))]
    rfl
  rw [mark_eq, Uuid.hyphenated, Text.bytesOf_ofList, List.length_cons, List.length_flatMap,
    List.map_congr_left hlow, List.map_const', List.sum_replicate_nat, Uuid.length_hyphenatedChars]

/-- A mark determines the identifier. -/
theorem mark_injective : Function.Injective mark := by
  intro u v h
  rw [mark_eq, mark_eq] at h
  have htext := congrArg strict (List.cons.inj h).2
  rw [Text.strict_bytesOf, Text.strict_bytesOf] at htext
  exact Uuid.hyphenated_injective (Option.some.inj htext)

end Marks

section Siblings

variable {path : Path} {name : Bytes}

/-- The file name of a path is a name, and one segment. -/
theorem isName_of_fileName? (h : path.fileName? = some name) : IsName name ∧ slash ∉ name := by
  have hmem := List.mem_of_getLast? (fileName?_eq_some_iff.mp h)
  rw [components, List.mem_append] at hmem
  rcases hmem with hlead | hbody
  · rcases path.lead_cases with ⟨hnone, -⟩ | ⟨hroot, -⟩ | ⟨hcurrent, -⟩
    · rw [hnone] at hlead
      cases hlead
    · rw [hroot] at hlead
      simp at hlead
    · rw [hcurrent] at hlead
      simp at hlead
  · obtain ⟨segment, hsegment, hcomponent⟩ := List.mem_filterMap.mp hbody
    obtain ⟨rfl, hname⟩ := componentOf_eq_name_iff.mp hcomponent
    exact ⟨hname, slash_notMem_of_mem_segmentsOf hsegment⟩

/-- The name of a harness holds no slash. -/
theorem slash_notMem_siblingName (path : Path) (suffix : Uuid) :
    slash ∉ path.siblingName suffix := by
  cases hname : path.fileName? with
  | some name => exact notMem_siblingName hname suffix (.inr rfl) (isName_of_fileName? hname).2
  | none =>
    have hempty : bytesOf (Text.lossy []) = [] :=
      Text.bytesOf_lossy_iff.mpr (Text.isSome_strict_flatMap [])
    have halone : path.siblingName suffix = mark suffix := by
      simp [siblingName, stem?, fileExtension?, hname, mark_eq, hempty]
    rw [halone]
    exact notMem_mark (.inr rfl) suffix

/-- **The components of a harness** are those of the directory of its program and the name of
the harness. -/
theorem components_sibling (path : Path) (suffix : Uuid) :
    (path.sibling suffix).components =
      path.parent?.elim [] components ++ [.name (path.siblingName suffix)] := by
  have hname := isName_siblingName path suffix
  have hslash := slash_notMem_siblingName path suffix
  rw [sibling]
  cases path.parent? with
  | some directory => exact components_join directory hname hslash
  | none => exact components_name hname hslash

/-- The file name of a harness. -/
theorem fileName?_sibling (path : Path) (suffix : Uuid) :
    (path.sibling suffix).fileName? = some (path.siblingName suffix) := by
  rw [fileName?_eq_some_iff, components_sibling, List.getLast?_concat]

/-- **The directory of a harness** is that of its program. -/
theorem parent?_sibling {directory : Path} (h : path.parent? = some directory) (suffix : Uuid) :
    (path.sibling suffix).parent? = some directory := by
  rw [sibling, h]
  exact parent?_join (exists_components_of_parent? h).1 (isName_siblingName path suffix)
    (slash_notMem_siblingName path suffix)

/-- **The name of a harness** has the mark behind the stem of the program's name, if that name
is text. -/
theorem siblingName_eq (h : path.fileName? = some name) (htext : (strict name).isSome)
    (suffix : Uuid) : path.siblingName suffix =
      (divideName name).1 ++ mark suffix ++ dotted (divideName name).2 := by
  obtain ⟨hstem, hextension⟩ := isSome_strict_divideName htext
  have hfirst := Text.bytesOf_lossy_iff.mpr hstem
  simp only [siblingName, stem?, fileExtension?, h, Option.map_some, Option.getD_some,
    Option.bind_some, hfirst, ← mark_eq]
  cases hsecond : (divideName name).2 with
  | none => rw [dotted]
  | some after =>
    have hafter := Text.bytesOf_lossy_iff.mpr (hextension after hsecond)
    simp only [dotted, hafter]

/-- The path has a file name that is text. -/
def HasTextName (path : Path) : Prop := ∃ name, path.fileName? = some name ∧ (strict name).isSome

/-- The name of a harness is divided where the name of its program is. -/
theorem divideName_siblingName (h : path.fileName? = some name) (htext : (strict name).isSome)
    (suffix : Uuid) :
    divideName (path.siblingName suffix) = ((divideName name).1 ++ mark suffix,
      (divideName name).2) := by
  have hne : name ≠ [] := by
    rintro rfl
    exact absurd (isName_of_fileName? h).1.1 (by decide)
  rw [siblingName_eq h htext]
  exact divideName_marked hne (notMem_mark (.inl rfl) suffix)

/-- **A harness** stands in the directory of its program, has its extension, and its stem with
an underscore and the identifier behind, if the program has a name that is text.  On the paths
of such programs and on identifiers, the components of the harness are those of one program and
one identifier only.  And whatever the path of a program is, the path of a harness is another.
-/
theorem sibling_is_fresh :
    (∀ (path : Path) (suffix : Uuid), path.HasTextName →
      (∃ directory, path.parent? = some directory ∧
        (path.sibling suffix).parent? = some directory) ∧
      (path.sibling suffix).fileExtension? = path.fileExtension? ∧
      (∃ stem, path.stem? = some stem ∧
        (path.sibling suffix).stem? = some (stem ++ bytesOf ("_" ++ suffix.hyphenated)))) ∧
    (∀ (path other : Path) (suffix otherSuffix : Uuid), path.HasTextName → other.HasTextName →
      (path.sibling suffix).components = (other.sibling otherSuffix).components →
      path.components = other.components ∧ suffix = otherSuffix) ∧
    (∀ (path : Path) (suffix : Uuid), (path.sibling suffix).components ≠ path.components) := by
  refine ⟨?_, ?_, ?_⟩
  · rintro path suffix ⟨name, hname, htext⟩
    obtain ⟨directory, hparent, -⟩ := exists_parent?_of_fileName? hname
    have hdivided := divideName_siblingName hname htext suffix
    refine ⟨⟨directory, hparent, parent?_sibling hparent suffix⟩, ?_, (divideName name).1, ?_, ?_⟩
    · rw [fileExtension?, fileExtension?, fileName?_sibling, hname, Option.bind_some,
        Option.bind_some, hdivided]
    · rw [stem?, hname, Option.map_some]
    · rw [stem?, fileName?_sibling, Option.map_some, hdivided, mark]
  · rintro path other suffix otherSuffix ⟨name, hname, htext⟩ ⟨otherName, hother, hotherText⟩ h
    obtain ⟨directory, hparent, hcomponents⟩ := exists_parent?_of_fileName? hname
    obtain ⟨otherDirectory, hotherParent, hotherComponents⟩ := exists_parent?_of_fileName? hother
    rw [components_sibling, components_sibling, hparent, hotherParent, Option.elim_some,
      Option.elim_some] at h
    obtain ⟨hdirectory, hlast⟩ := List.append_inj' h rfl
    have hnames : path.siblingName suffix = other.siblingName otherSuffix := by simpa using hlast
    have hparts := divideName_siblingName hname htext suffix
    rw [hnames, divideName_siblingName hother hotherText otherSuffix] at hparts
    obtain ⟨hstems, hextension⟩ := Prod.ext_iff.mp hparts
    -- Marks are of one length, so the stem ends where the mark begins.
    obtain ⟨hstem, hmark⟩ := List.append_inj' hstems (by rw [length_mark, length_mark])
    have hsame : name = otherName := by
      rw [← divideName_append_dotted name, ← divideName_append_dotted otherName, hstem]
      exact congrArg _ (congrArg dotted hextension.symm)
    rw [hcomponents, hotherComponents, hdirectory, hsame]
    exact ⟨rfl, mark_injective hmark.symm⟩
  · intro path suffix h
    -- Otherwise the program has the name of the harness, which is text, and its stem is the
    -- longer one.
    have hname : path.fileName? = some (path.siblingName suffix) := by
      rw [fileName?_eq_some_iff, ← h, components_sibling, List.getLast?_concat]
    obtain ⟨text, htext⟩ := path.exists_siblingName_eq suffix
    have hstrict : (strict (path.siblingName suffix)).isSome := by
      rw [htext, Text.strict_bytesOf]
      rfl
    have hdivided := divideName_siblingName hname hstrict suffix
    have hlength := congrArg (fun parts => parts.1.length) hdivided
    simp [length_mark] at hlength

/-- A name that begins with dots and ends in one, in a directory that is no text, and a slash
behind it: the identifier goes before the last dot. -/
theorem sibling_of_dotted_name :
    let path : Path := ⟨[0xff, slash, dot, dot, 0x62, dot, 0x63, dot, slash]⟩
    let suffix : Uuid := ⟨Vector.replicate 16 0⟩
    path.HasTextName ∧ (path.sibling suffix).parent? = some ⟨[0xff]⟩ ∧
      (path.sibling suffix).fileExtension? = some [] ∧
      (path.sibling suffix).stem? =
        some ([dot, dot, 0x62, dot, 0x63] ++ bytesOf ("_" ++ suffix.hyphenated)) ∧
      (∀ otherSuffix, (path.sibling suffix).components = (path.sibling otherSuffix).components →
        suffix = otherSuffix) ∧
      (path.sibling suffix).components ≠ path.components := by
  intro path suffix
  have hparent : path.parent? = some ⟨[0xff]⟩ := by decide
  have hextension : path.fileExtension? = some [] := by decide
  have hstem : path.stem? = some [dot, dot, 0x62, dot, 0x63] := by decide
  have htext : path.HasTextName := by
    refine ⟨[dot, dot, 0x62, dot, 0x63, dot], by decide, ?_⟩
    have hchars := Text.isSome_strict_flatMap ['.', '.', 'b', '.', 'c', '.']
    exact hchars
  obtain ⟨hbeside, hinjective, hfresh⟩ := sibling_is_fresh
  obtain ⟨⟨directory, hdirectory, hown⟩, hsame, stem, hfirst, hmarked⟩ := hbeside path suffix htext
  obtain rfl : (⟨[0xff]⟩ : Path) = directory := Option.some.inj (hparent.symm.trans hdirectory)
  obtain rfl : [dot, dot, 0x62, dot, 0x63] = stem := Option.some.inj (hstem.symm.trans hfirst)
  exact ⟨htext, hown, hsame.trans hextension, hmarked,
    fun otherSuffix h => (hinjective path path suffix otherSuffix htext htext h).2,
      hfresh path suffix⟩

end Siblings

end Path

end EngineFuzz
