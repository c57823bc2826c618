import Spaceless.Logic.Separator
import Spaceless.ResourceServer.FilePath

/-!
# Taking paths apart

Handlers take a path for its components, or for the path of its directory and
its file name, and each of these views constructs a path again.  A path that
was constructed once is not always one that construction leaves as it is.
-/

namespace Spaceless
namespace ResourceServer

open Foundation Logic

/-! ## The functions of the constructor -/

theorem replaceInPlace_singleton (pattern replacement : Char) (text : Text) :
    replaceInPlace text [pattern] [replacement] =
      text.map fun character =>
        if character = pattern then replacement else character := by
  unfold replaceInPlace
  induction text with
  | nil => rfl
  | cons character rest inductionHypothesis =>
      rw [replaceAfter, List.map_cons]
      by_cases same : character = pattern
      · subst same
        simp only [List.isPrefixOf, beq_self_eq_true, Bool.true_and,
          if_true, List.length_singleton, Nat.sub_self, List.singleton_append]
        rw [inductionHypothesis]
      · have other : (pattern == character) = false := by
          simpa using fun equal => same equal.symm
        simp only [List.isPrefixOf, other, Bool.false_and, Bool.false_eq_true,
          if_false, same]
        rw [inductionHypothesis]

theorem replaceInPlace_pair (separator : Char) (text : Text) :
    replaceInPlace text [separator, separator] [separator] =
      Separator.squeeze separator text := by
  unfold replaceInPlace
  fun_induction Separator.squeeze separator text with
  | case1 => rfl
  | case2 last => simp [replaceAfter, List.isPrefixOf]
  | case3 first second rest both inductionHypothesis =>
      obtain ⟨rfl, rfl⟩ := both
      rw [replaceAfter, if_pos (by simp [List.isPrefixOf]),
        ← inductionHypothesis]
      rfl
  | case4 first second rest other inductionHypothesis =>
      rw [replaceAfter, if_neg, inductionHypothesis]
      simp only [List.isPrefixOf, Bool.and_true, Bool.and_eq_true,
        beq_iff_eq]
      exact fun both => other ⟨both.1.symm, both.2.symm⟩

theorem head?_dropWhile_isSpace (text : Text) :
    (text.dropWhile isSpace).head?.any isSpace = false := by
  induction text with
  | nil => rfl
  | cons character rest inductionHypothesis =>
      rw [List.dropWhile_cons]
      split
      · exact inductionHypothesis
      · simp_all

theorem dropWhile_isSpace_eq_self_iff {text : Text} :
    text.dropWhile isSpace = text ↔ text.head?.any isSpace = false := by
  constructor
  · intro same
    rw [← same]
    exact head?_dropWhile_isSpace text
  · intro first
    cases text with
    | nil => rfl
    | cons character rest =>
        simp only [List.head?_cons, Option.any_some] at first
        rw [List.dropWhile_cons, if_neg (by simp [first])]

theorem trimInPlace_sublist (text : Text) :
    (trimInPlace text).Sublist text := by
  unfold trimInPlace
  rw [← List.reverse_reverse text, List.reverse_sublist,
    List.reverse_reverse]
  refine (List.dropWhile_sublist _).trans ?_
  rw [List.reverse_sublist]
  exact List.dropWhile_sublist _

/-- Nothing is trimmed exactly where no space is at the ends. -/
theorem trimInPlace_eq_self_iff {text : Text} :
    trimInPlace text = text ↔ text.head?.any isSpace = false ∧
      text.getLast?.any isSpace = false := by
  rw [← List.head?_reverse, ← dropWhile_isSpace_eq_self_iff,
    ← dropWhile_isSpace_eq_self_iff]
  unfold trimInPlace
  constructor
  · intro same
    have front : text.dropWhile isSpace = text := by
      apply (List.dropWhile_suffix isSpace).eq_of_length_le
      have shorter := (List.dropWhile_suffix isSpace
        (l := (text.dropWhile isSpace).reverse)).length_le
      rw [← List.length_reverse, same, List.length_reverse] at shorter
      exact shorter
    rw [front] at same
    exact ⟨front, List.reverse_eq_iff.mp same⟩
  · rintro ⟨front, back⟩
    rw [front, back, List.reverse_reverse]

theorem modifyHead_nil_append (pieces : List Text) :
    pieces.modifyHead ([] ++ ·) = pieces := by
  cases pieces <;> rfl

/-- The rest of a tokenizer run: the token read so far goes before the first
piece, and the end of the text is no token before a separator was met. -/
theorem tokenizeAfter_eq (separator : Char) (token : Text)
    (lastToken : Bool) (rest : Text) :
    tokenizeAfter separator token lastToken rest =
      if token = [] ∧ rest = [] ∧ lastToken = false then []
      else (rest.splitOn separator).modifyHead (token ++ ·) := by
  induction rest generalizing token lastToken with
  | nil =>
      rw [tokenizeAfter]
      by_cases read : token = [] <;> cases lastToken <;> simp [read]
  | cons character rest inductionHypothesis =>
      have further : ¬(token = [] ∧ character :: rest = [] ∧
          lastToken = false) := fun ended => List.cons_ne_nil _ _ ended.2.1
      rw [tokenizeAfter, if_neg further]
      by_cases same : character = separator
      · subst same
        rw [if_pos rfl, inductionHypothesis, Separator.splitOn_cons_self,
          if_neg (by simp), List.modifyHead_cons, List.append_nil,
          modifyHead_nil_append]
      · rw [if_neg same, inductionHypothesis,
          Separator.splitOn_cons_of_ne same, if_neg (by simp),
          List.modifyHead_modifyHead]
        congr 1
        funext piece
        simp

/-- The tokens of a text are its pieces, and the empty text has none. -/
theorem tokenize_eq (separator : Char) (text : Text) :
    tokenize separator text =
      if text = [] then [] else text.splitOn separator := by
  rw [tokenize, tokenizeAfter_eq, modifyHead_nil_append]
  simp only [true_and, and_true]

theorem rfind_eq_none {separator : Char} {text : Text}
    (absent : rfind separator text = none) : separator ∉ text := by
  induction text with
  | nil => exact List.not_mem_nil
  | cons character rest inductionHypothesis =>
      rw [rfind] at absent
      split at absent
      · cases absent
      · rename_i later
        split at absent
        · cases absent
        · rename_i different
          rw [List.mem_cons, not_or]
          exact ⟨fun same => different same.symm, inductionHypothesis later⟩

theorem rfind_eq_some {separator : Char} {text : Text} {position : Nat}
    (found : rfind separator text = some position) :
    text = text.take position ++ separator :: text.drop (position + 1) ∧
      separator ∉ text.drop (position + 1) := by
  induction text generalizing position with
  | nil => cases found
  | cons character rest inductionHypothesis =>
      rw [rfind] at found
      split at found
      · rename_i later inRest
        cases found
        obtain ⟨split, absent⟩ := inductionHypothesis inRest
        rw [List.take_succ_cons, List.drop_succ_cons, List.cons_append,
          ← split]
        exact ⟨rfl, absent⟩
      · rename_i later
        split at found
        · rename_i same
          cases found
          subst same
          exact ⟨rfl, rfind_eq_none later⟩
        · cases found

/-! ## Construction -/

namespace FilePath

/-- The text without spaces at its ends, with separators of one kind. -/
def slashed (text : Text) : Text :=
  replaceInPlace (trimInPlace text) ['\\'] [separator]

/-- The constructor, which has no result where `front` or `back` is read of
the empty string. -/
def construct (path : Text) : Option FilePath := do
  let single := replaceInPlace (slashed path) ['/', '/'] [separator]
  let front ← single.head?
  let relative := if front = separator then single.drop 1 else single
  let back ← relative.getLast?
  pure
    { path := if back = separator then relative.dropLast else relative }

/-- The components of a text, whatever separators are between them. -/
def components (text : Text) : List Text :=
  Separator.words separator (slashed text)

/-- Every construction that is asked for is defined, no component is empty, a
constructed path stays as it is, and it is its directory with its file
name. -/
def Decomposes (text : Text) : Prop :=
  ∃ path, construct text = some path ∧ [] ∉ path.split ∧
    construct path.path = some path ∧
      (path.path ≠ root → ∃ directory,
        construct path.directoryPath = some directory ∧
          directory.split ++ [path.filename] = path.split)

/-- The text has two components or more, and never three separators in a row;
the first component does not begin with a space, and the last two do not end
with one. -/
structure Decomposable (text : Text) : Prop where
  runs : ¬[separator, separator, separator] <:+: slashed text
  begins : ∀ first ∈ (components text).head?,
    first.head?.any isSpace = false
  ends : ∃ directories parent name,
    components text = directories ++ [parent, name] ∧
      parent.getLast?.any isSpace = false ∧
        name.getLast?.any isSpace = false

variable {text : Text} {path : FilePath}

theorem replaceInPlace_separators (text : Text) :
    replaceInPlace text ['/', '/'] [separator] =
      Separator.squeeze separator text :=
  replaceInPlace_pair separator text

theorem ofText_path (text : Text) :
    (ofText text).path =
      Separator.strip separator
        (Separator.squeeze separator (slashed text)) := by
  rw [← replaceInPlace_separators]
  rfl

/-- Where the constructor has a result it is the one of `ofText`. -/
theorem ofText_of_construct (constructed : construct text = some path) :
    ofText text = path := by
  obtain ⟨front, isFront, rest⟩ := Option.bind_eq_some_iff.mp constructed
  obtain ⟨back, isBack, result⟩ := Option.bind_eq_some_iff.mp rest
  have stripped := ofText_path text
  rw [← replaceInPlace_separators] at stripped
  unfold Separator.strip at stripped
  simp only [isFront, Option.some.injEq, isBack] at stripped
  rw [← Option.some.inj result]
  exact congrArg FilePath.mk stripped

theorem words_ofText (text : Text) :
    Separator.words separator (ofText text).path = components text := by
  rw [ofText_path, Separator.words_strip, Separator.words_squeeze]
  rfl

/-- The constructor has a result where the text has a component. -/
theorem construct_of_worded (worded : components text ≠ []) :
    construct text = some (ofText text) := by
  suffices constructed : ∃ path, construct text = some path by
    obtain ⟨path, constructed⟩ := constructed
    rw [constructed, ofText_of_construct constructed]
  have single : Separator.words separator (replaceInPlace (slashed text)
      ['/', '/'] [separator]) ≠ [] := by
    rw [replaceInPlace_separators, Separator.words_squeeze]
    exact worded
  unfold construct
  cases shown : replaceInPlace (slashed text) ['/', '/'] [separator] with
  | nil =>
      rw [shown] at single
      exact absurd Separator.words_nil single
  | cons front rest =>
      have relative : (if front = separator then rest else front :: rest) ≠
          [] := by
        split
        · rename_i leading
          rw [shown, leading] at single
          rintro rfl
          exact single (Separator.words_append_cons [] [])
        · exact List.cons_ne_nil _ _
      obtain ⟨back, isBack⟩ :=
        Option.isSome_iff_exists.mp (List.getLast?_isSome.mpr relative)
      exact ⟨_, Option.bind_eq_some_iff.mpr ⟨front, rfl,
        Option.bind_eq_some_iff.mpr ⟨back, isBack, rfl⟩⟩⟩

theorem backslash_not_mem_slashed (text : Text) :
    '\\' ∉ slashed text := by
  rw [slashed, replaceInPlace_singleton, List.mem_map]
  rintro ⟨character, -, same⟩
  split at same
  · cases same
  · contradiction

theorem backslash_not_mem_ofText (text : Text) :
    '\\' ∉ (ofText text).path := by
  rw [ofText_path]
  intro member
  exact backslash_not_mem_slashed text (Separator.mem_of_mem_squeeze
    ((Separator.strip_sublist _ _).subset member))

theorem slashed_eq_self (plain : '\\' ∉ text)
    (first : text.head?.any isSpace = false)
    (last : text.getLast?.any isSpace = false) :
    slashed text = text := by
  rw [slashed, trimInPlace_eq_self_iff.mpr ⟨first, last⟩,
    replaceInPlace_singleton]
  have kept : ∀ character ∈ text, (if character = '\\' then separator
      else character) = id character := by
    intro character member
    apply if_neg
    rintro rfl
    exact plain member
  rw [List.map_congr_left kept, List.map_id]

/-- A text with no empty piece and no space at its ends is left as it is. -/
theorem construct_eq_self (tight : [] ∉ text.splitOn separator)
    (plain : '\\' ∉ text) (first : text.head?.any isSpace = false)
    (last : text.getLast?.any isSpace = false) :
    construct text = some { path := text } := by
  have same := slashed_eq_self plain first last
  have worded : components text ≠ [] := by
    rw [components, same, Separator.words_of_nil_not_mem tight]
    exact List.splitOn_ne_nil _ _
  have kept : (ofText text).path = text := by
    rw [Separator.nil_mem_splitOn_iff] at tight
    simp only [not_or] at tight
    obtain ⟨-, front, back, apart⟩ := tight
    rw [ofText_path, same, Separator.squeeze_eq_self apart,
      Separator.strip_eq_self front back]
  rw [construct_of_worded worded]
  exact congrArg some (congrArg FilePath.mk kept)

/-- A text that is left as it is has no space at its ends. -/
theorem edges_of_construct
    (same : construct text = some { path := text }) :
    text.head?.any isSpace = false ∧ text.getLast?.any isSpace = false := by
  have kept : (ofText text).path = text := by
    rw [ofText_of_construct same]
  have longer : text.length ≤ (trimInPlace text).length := by
    calc text.length
        = (Separator.strip separator (Separator.squeeze separator
            (slashed text))).length := by rw [← ofText_path, kept]
      _ ≤ (Separator.squeeze separator (slashed text)).length :=
          (Separator.strip_sublist _ _).length_le
      _ ≤ (slashed text).length := Separator.length_squeeze_le _ _
      _ = (trimInPlace text).length := by
          rw [slashed, replaceInPlace_singleton, List.length_map]
  apply trimInPlace_eq_self_iff.mp
  exact (trimInPlace_sublist text).eq_of_length_le longer

/-- A path is its file name alone, or its directory, a separator and its file
name. -/
theorem pieces_cases (path : FilePath) :
    (path.directoryPath = root ∧
        path.path.splitOn separator = [path.path]) ∨
      path.path.splitOn separator =
        path.directoryPath.splitOn separator ++ [path.filename] := by
  unfold directoryPath filename
  cases found : rfind separator path.path with
  | none => exact Or.inl ⟨rfl, List.splitOn_eq_singleton (rfind_eq_none found)⟩
  | some position =>
      obtain ⟨split, absent⟩ := rfind_eq_some found
      right
      conv_lhs => rw [split]
      rw [List.splitOn_append_cons_self, List.splitOn_eq_singleton absent]

theorem split_eq (path : FilePath) :
    path.split =
      if path.path = [] then [] else path.path.splitOn separator :=
  tokenize_eq separator path.path

theorem split_of_ne_root (full : path.path ≠ root) :
    path.split = path.path.splitOn separator :=
  (split_eq path).trans (if_neg full)

/-- Where the text has a component, an empty component of the path comes from
three separators in a row. -/
theorem nil_mem_splitOn_ofText (worded : components text ≠ []) :
    [] ∈ (ofText text).path.splitOn separator ↔
      [separator, separator, separator] <:+: slashed text := by
  rw [components, ← Separator.words_squeeze] at worded
  rw [ofText_path, Separator.nil_mem_splitOn_strip worded,
    Separator.pair_squeeze_iff]

/-- The components of the path are those of the text where none is empty. -/
theorem splitOn_ofText
    (tight : [] ∉ (ofText text).path.splitOn separator) :
    (ofText text).path.splitOn separator = components text := by
  rw [← Separator.words_of_nil_not_mem tight, words_ofText]

/-- The first and the last piece tell whether a space is at an end. -/
theorem edges_of_pieces {pieces : List Text} {last : Text}
    (tight : [] ∉ text.splitOn separator)
    (split : text.splitOn separator = pieces ++ [last])
    (begins : ∀ first ∈ (text.splitOn separator).head?,
      first.head?.any isSpace = false)
    (ends : last.getLast?.any isSpace = false) :
    text.head?.any isSpace = false ∧ text.getLast?.any isSpace = false := by
  have full (piece : Text) (member : piece ∈ text.splitOn separator) :
      piece ≠ [] := fun empty => tight (empty ▸ member)
  obtain ⟨first, isFirst⟩ := Option.isSome_iff_exists.mp
    (List.isSome_head?.mpr (List.splitOn_ne_nil separator text))
  have isLast : (text.splitOn separator).getLast? = some last := by
    rw [split, List.getLast?_concat]
  rw [Separator.head?_of_head?_splitOn isFirst
      (full first (List.mem_of_head? isFirst)),
    Separator.getLast?_of_getLast?_splitOn isLast
      (full last (List.mem_of_getLast? isLast))]
  exact ⟨begins first isFirst, ends⟩

theorem ne_nil_of_tight (tight : [] ∉ text.splitOn separator) :
    text ≠ [] := by
  rintro rfl
  exact tight (by simp)

theorem Decomposable.decomposes (decomposable : Decomposable text) :
    Decomposes text := by
  obtain ⟨directories, parent, name, split, parentEnds, nameEnds⟩ :=
    decomposable.ends
  have worded : components text ≠ [] := by
    rw [split]
    simp
  have tight := (nil_mem_splitOn_ofText worded).not.mpr decomposable.runs
  have plain := backslash_not_mem_ofText text
  have begins := decomposable.begins
  rw [← splitOn_ofText tight] at begins split
  refine ⟨ofText text, construct_of_worded worded, ?_⟩
  generalize ofText text = path at tight plain begins split
  have whole : path.path.splitOn separator =
      path.directoryPath.splitOn separator ++ [path.filename] := by
    apply (pieces_cases path).resolve_left
    rintro ⟨-, alone⟩
    have lengths := congrArg List.length (alone.symm.trans split)
    simp at lengths
  have parts : path.directoryPath.splitOn separator =
      directories ++ [parent] := by
    have joined : path.directoryPath.splitOn separator ++ [path.filename] =
        (directories ++ [parent]) ++ [name] := by
      rw [← whole, split, List.append_assoc]
      rfl
    exact (List.append_inj' joined rfl).1
  have directoryTight :
      [] ∉ path.directoryPath.splitOn separator := by
    intro member
    exact tight (whole ▸ List.mem_append_left _ member)
  have directoryBegins : ∀ first ∈
      (path.directoryPath.splitOn separator).head?,
      first.head?.any isSpace = false := by
    intro first isFirst
    apply begins
    rw [whole, List.head?_append, isFirst]
    rfl
  have directoryPlain : '\\' ∉ path.directoryPath := by
    unfold directoryPath
    split
    · exact fun member => plain (List.mem_of_mem_take member)
    · exact List.not_mem_nil
  have edges := @edges_of_pieces path.path (directories ++ [parent]) name
    tight (split.trans (List.append_assoc _ [parent] [name]).symm) begins
    nameEnds
  have directoryEdges := edges_of_pieces directoryTight parts
    directoryBegins parentEnds
  refine ⟨?_, ?_, fun _ => ⟨⟨path.directoryPath⟩, ?_, ?_⟩⟩
  · rw [split_of_ne_root (ne_nil_of_tight tight)]
    exact tight
  · exact construct_eq_self tight plain edges.1 edges.2
  · exact construct_eq_self directoryTight directoryPlain directoryEdges.1
      directoryEdges.2
  · rw [split_of_ne_root (ne_nil_of_tight tight), whole]
    congr 1
    exact split_of_ne_root (ne_nil_of_tight directoryTight)

theorem Decomposes.decomposable (decomposes : Decomposes text) :
    Decomposable text := by
  obtain ⟨path, constructed, nonempty, again, views⟩ := decomposes
  have isPath := ofText_of_construct constructed
  have full : path.path ≠ root := by
    intro empty
    rw [empty] at again
    cases again
  obtain ⟨directory, isDirectory, joined⟩ := views full
  have directoryFull : path.directoryPath ≠ root := by
    intro empty
    rw [empty] at isDirectory
    cases isDirectory
  have whole := (pieces_cases path).resolve_left
    fun alone => directoryFull alone.1
  have tight : [] ∉ path.path.splitOn separator := by
    rwa [split_of_ne_root full] at nonempty
  have directoryTight :
      [] ∉ path.directoryPath.splitOn separator := by
    intro member
    exact tight (whole ▸ List.mem_append_left _ member)
  have same : construct path.directoryPath =
      some { path := path.directoryPath } := by
    rw [split_of_ne_root full, whole] at joined
    have pieces := (List.append_inj' joined rfl).1
    rw [split_eq] at pieces
    split at pieces
    · exact absurd pieces.symm (List.splitOn_ne_nil _ _)
    · have kept := congrArg [separator].intercalate pieces
      rw [List.intercalate_splitOn, List.intercalate_splitOn] at kept
      rw [isDirectory, ← kept]
  have pieces : components text = path.path.splitOn separator := by
    rw [← isPath] at tight ⊢
    exact (splitOn_ofText tight).symm
  have worded : components text ≠ [] := by
    rw [pieces]
    exact List.splitOn_ne_nil _ _
  obtain ⟨front, back⟩ := edges_of_construct again
  have directoryBack := (edges_of_construct same).2
  constructor
  · rw [← nil_mem_splitOn_ofText worded, isPath]
    exact tight
  · intro first isFirst
    rw [pieces] at isFirst
    have firstFull : first ≠ [] := fun empty =>
      tight (empty ▸ List.mem_of_head? isFirst)
    rwa [← Separator.head?_of_head?_splitOn isFirst firstFull]
  · obtain ⟨directories, parent, parts⟩ :=
      (List.eq_nil_or_concat _).resolve_left
        (List.splitOn_ne_nil separator path.directoryPath)
    rw [List.concat_eq_append] at parts
    have isParent : (path.directoryPath.splitOn separator).getLast? =
        some parent := by
      rw [parts, List.getLast?_concat]
    have isName : (path.path.splitOn separator).getLast? =
        some path.filename := by
      rw [whole, List.getLast?_concat]
    have parentFull : parent ≠ [] := fun empty =>
      directoryTight (empty ▸ List.mem_of_getLast? isParent)
    have nameFull : path.filename ≠ [] := fun empty =>
      tight (empty ▸ List.mem_of_getLast? isName)
    refine ⟨directories, parent, path.filename, ?_, ?_, ?_⟩
    · rw [pieces, whole, parts, List.append_assoc]
      rfl
    · rwa [← Separator.getLast?_of_getLast?_splitOn isParent parentFull]
    · rwa [← Separator.getLast?_of_getLast?_splitOn isName nameFull]

/-- The views of a path fit together exactly on these texts. -/
theorem decomposes_iff : Decomposes text ↔ Decomposable text :=
  ⟨Decomposes.decomposable, Decomposable.decomposes⟩

/-- The empty text is read past its end; three separators leave an empty
component; a space behind a separator at the start is trimmed only by the
next construction; and one before the file name is trimmed from the
directory. -/
theorem not_decomposes :
    ¬Decomposes [] ∧
      (construct ['a', '/', '/', '/', 'b']).map split =
        some [['a'], [], ['b']] ∧
      construct ['/', ' ', 'a'] = some { path := [' ', 'a'] } ∧
      construct [' ', 'a'] = some { path := ['a'] } ∧
      construct ['a', ' ', '/', 'b'] =
        some { path := ['a', ' ', '/', 'b'] } ∧
      (construct (directoryPath { path := ['a', ' ', '/', 'b'] })).map split =
        some [['a']] := by
  refine ⟨?_, by decide +kernel⟩
  rintro ⟨path, constructed, -⟩
  cases constructed

end FilePath

end ResourceServer
end Spaceless
