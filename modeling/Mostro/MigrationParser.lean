import Mostro.MigrationTexts

set_option autoImplicit false

/-!
The daemon's parser of column additions against the way they are written: what it accepts is written
as column additions, and where the names are bare or between marks it returns the additions that the
text consists of.
-/

namespace Mostro.Migrations

section

variable {t : Text} {words : List Text}

theorem splitWhitespace_append_space {c : Char} (hc : isWhitespace c = true) (t rest : Text) :
    splitWhitespace (t ++ c :: rest) = splitWhitespace t ++ splitWhitespace rest := by
  rw [splitWhitespace,List.splitOnP_append_cons t rest hc,List.filter_append]
  rfl

theorem splitWhitespace_space {c : Char} (hc : isWhitespace c = true) (t : Text) :
    splitWhitespace (c :: t) = splitWhitespace t := splitWhitespace_append_space hc [] t

theorem splitWhitespace_spaces {space : Text} (h : ∀ c ∈ space, isWhitespace c = true) (t : Text) :
    splitWhitespace (space ++ t) = splitWhitespace t := by
  induction space with
  | nil => rfl
  | cons c space ih =>
    rw [List.cons_append,splitWhitespace_space (h c List.mem_cons_self)]
    exact ih fun a ha => h a (List.mem_cons_of_mem c ha)

theorem splitWhitespace_blank (h : ∀ c ∈ t, isWhitespace c = true) : splitWhitespace t = [] := by
  rw [← List.append_nil t,splitWhitespace_spaces h]
  rfl

theorem splitWhitespace_append_blank {space : Text} (t : Text)
    (h : ∀ c ∈ space, isWhitespace c = true) :
    splitWhitespace (t ++ space) = splitWhitespace t := by
  cases space with
  | nil => rw [List.append_nil]
  | cons c space =>
    rw [splitWhitespace_append_space (h c List.mem_cons_self),
      splitWhitespace_blank fun a ha => h a (List.mem_cons_of_mem c ha),List.append_nil]

theorem splitWhitespace_single (hne : t ≠ []) (h : ∀ c ∈ t, isWhitespace c = false) :
    splitWhitespace t = [t] := by
  rw [splitWhitespace,List.splitOnP_eq_singleton h,List.filter_cons_of_pos (by simpa using hne)]
  rfl

theorem splitWhitespace_word {word rest : Text} (hne : word ≠ [])
    (hword : ∀ c ∈ word, isWhitespace c = false) (hrest : ∀ c ∈ rest.head?, isWhitespace c = true) :
    splitWhitespace (word ++ rest) = word :: splitWhitespace rest := by
  cases rest with
  | nil => rw [List.append_nil,splitWhitespace_single hne hword]; rfl
  | cons c rest =>
    have hc : isWhitespace c = true := hrest c rfl
    rw [splitWhitespace_append_space hc,splitWhitespace_single hne hword,splitWhitespace_space hc]
    rfl

theorem splitWhitespace_of_words (h : Words t words) : splitWhitespace t = words := by
  induction h with
  | blank hspace => exact splitWhitespace_blank hspace
  | word hspace hne hword hrest _ ih =>
    rw [List.append_assoc,splitWhitespace_spaces hspace,splitWhitespace_word hne hword hrest,ih]

theorem Words.cons_space {c : Char} (hc : isWhitespace c = true) (h : Words t words) :
    Words (c :: t) words := by
  cases h with
  | blank hspace => exact .blank (List.forall_mem_cons.mpr ⟨hc,hspace⟩)
  | word hspace hne hword hrest h =>
    rw [← List.cons_append,← List.cons_append]
    exact .word (List.forall_mem_cons.mpr ⟨hc,hspace⟩) hne hword hrest h

theorem Words.cons_word {word rest : Text} (hne : word ≠ [])
    (hword : ∀ c ∈ word, isWhitespace c = false) (hrest : ∀ c ∈ rest.head?, isWhitespace c = true)
    (h : Words rest words) : Words (word ++ rest) (word :: words) := by
  rw [← List.nil_append word]
  exact .word (by simp) hne hword hrest h

theorem words_splitWhitespace (t : Text) : Words t (splitWhitespace t) := by
  -- the recursion is on what follows the first word and the white space after it
  induction hn : t.length using Nat.strongRecOn generalizing t with
  | ind n ih =>
    have hsplit := List.takeWhile_append_dropWhile (p := fun c => !isWhitespace c) (l := t)
    have hword : ∀ c ∈ t.takeWhile fun c => !isWhitespace c, isWhitespace c = false :=
      fun c hc => by
      simpa using List.all_eq_true.mp List.all_takeWhile c hc
    have hhead : ∀ c ∈ (t.dropWhile fun c => !isWhitespace c).head?, isWhitespace c = true :=
      fun c hc => by
        have hnot := List.head?_dropWhile_not (fun c => !isWhitespace c) t
        rw [Option.mem_def.mp hc] at hnot
        simpa using hnot
    generalize t.takeWhile (fun c => !isWhitespace c) = word at hsplit hword
    generalize t.dropWhile (fun c => !isWhitespace c) = rest at hsplit hhead
    subst hsplit
    have hlater : Words rest (splitWhitespace rest) := by
      cases rest with
      | nil => exact .blank (by simp)
      | cons c rest =>
        have hc : isWhitespace c = true := hhead c rfl
        rw [splitWhitespace_space hc]
        exact (ih rest.length (by simp at hn; omega) rest rfl).cons_space hc
    rcases eq_or_ne word [] with rfl | hne
    · exact hlater
    · rw [splitWhitespace_word hne hword hhead]
      exact hlater.cons_word hne hword hhead

theorem words_iff : Words t words ↔ splitWhitespace t = words :=
  ⟨splitWhitespace_of_words,fun h => h ▸ words_splitWhitespace t⟩

theorem dropEndWhile_append (p : Char → Bool) (t : Text) :
    ∃ rest, t = dropEndWhile p t ++ rest ∧ ∀ c ∈ rest, p c = true := by
  refine ⟨(t.reverse.takeWhile p).reverse,?_,fun c hc => ?_⟩
  · rw [dropEndWhile,← List.reverse_append,List.takeWhile_append_dropWhile,List.reverse_reverse]
  · exact List.all_eq_true.mp List.all_takeWhile c (List.mem_reverse.mp hc)

theorem splitWhitespace_trim (t : Text) : splitWhitespace (trim t) = splitWhitespace t := by
  obtain ⟨rest,hrest,hspace⟩ := dropEndWhile_append isWhitespace (t.dropWhile isWhitespace)
  have hfirst : ∀ c ∈ t.takeWhile isWhitespace, isWhitespace c = true :=
    List.all_eq_true.mp List.all_takeWhile
  calc splitWhitespace (trim t)
      = splitWhitespace (t.dropWhile isWhitespace) := by
        conv_rhs => rw [hrest,splitWhitespace_append_blank _ hspace]
        rfl
    _ = splitWhitespace t := by
        conv_rhs => rw [← List.takeWhile_append_dropWhile (p := isWhitespace) (l := t),
          splitWhitespace_spaces hfirst]

theorem trim_eq_nil_iff : trim t = [] ↔ Words t [] := by
  constructor
  · intro h
    rw [words_iff,← splitWhitespace_trim,h]
    rfl
  · intro h
    cases h with
    | blank hspace =>
      rw [trim,← List.append_nil t,List.dropWhile_append_of_pos hspace]
      rfl

end

section

variable {t name word : Text} {c : Char}

theorem dropWhile_of_none {p : Char → Bool} (h : ∀ c ∈ t, p c = false) : t.dropWhile p = t := by
  cases t with
  | nil => rfl
  | cons c t => simp [h c List.mem_cons_self]

theorem dropEndWhile_of_none {p : Char → Bool} (h : ∀ c ∈ t, p c = false) :
    dropEndWhile p t = t := by
  have hrev : ∀ c ∈ t.reverse, p c = false := fun c hc => h c (List.mem_reverse.mp hc)
  rw [dropEndWhile,dropWhile_of_none hrev,List.reverse_reverse]

theorem trim_of_none (h : ∀ c ∈ t, isWhitespace c = false) : trim t = t := by
  rw [trim,dropWhile_of_none h,dropEndWhile_of_none h]

theorem dropEndWhile_concat {p : Char → Bool} (hc : p c = true) :
    dropEndWhile p (t ++ [c]) = dropEndWhile p t := by
  rw [dropEndWhile,List.reverse_append,List.reverse_singleton,List.singleton_append,
    List.dropWhile_cons_of_pos hc]
  rfl

theorem trimMatches_of_not_mem (h : c ∉ t) : trimMatches c t = t := by
  have hnot : ∀ a ∈ t, (a == c) = false := fun a ha => by
    simpa using fun heq : a = c => h (heq ▸ ha)
  rw [trimMatches,dropWhile_of_none hnot,dropEndWhile_of_none hnot]

theorem trimMatches_cons (c : Char) (t : Text) : trimMatches c (c :: t) = trimMatches c t := by
  rw [trimMatches,List.dropWhile_cons_of_pos (by simp)]
  rfl

theorem trimMatches_concat (hne : t ≠ []) (h : c ∉ t) : trimMatches c (t ++ [c]) = t := by
  have hnot : ∀ a ∈ t, (a == c) = false := fun a ha => by
    simpa using fun heq : a = c => h (heq ▸ ha)
  obtain ⟨a,t,rfl⟩ := List.exists_cons_of_ne_nil hne
  rw [trimMatches,List.cons_append,List.dropWhile_cons_of_neg (by simp [hnot a]),
    ← List.cons_append,dropEndWhile_concat (by simp),dropEndWhile_of_none hnot]

theorem trimMatches_enclosed (hne : t ≠ []) (h : c ∉ t) : trimMatches c (c :: t ++ [c]) = t := by
  rw [List.cons_append,trimMatches_cons,trimMatches_concat hne h]

theorem not_mem_enclosed {o : Char} (h : c ∉ t) (ho : c ≠ o) {e : Char} (he : c ≠ e) :
    c ∉ o :: t ++ [e] := by simp [h,ho,he]

theorem normalizeSqlIdentifier_of_named (h : Named name word)
    (hword : ∀ c ∈ word, isWhitespace c = false) : normalizeSqlIdentifier word = name := by
  obtain ⟨hne,hchars,hmarks⟩ := h
  have hno (c : Char) (hc : isWordChar c = false) : c ∉ name := fun hmem => by
    simp [hchars c hmem] at hc
  have hdouble : Char.ofNat 34 ∉ name := hno _ (by decide)
  have hback : Char.ofNat 96 ∉ name := hno _ (by decide)
  have hopen : '[' ∉ name := hno _ (by decide)
  have hclose : ']' ∉ name := hno _ (by decide)
  have hcomma : ',' ∉ name := hno _ (by decide)
  have htrim (h : ',' ∉ word) : dropEndWhile (· == ',') (trim word) = word := by
    rw [trim_of_none hword]
    refine dropEndWhile_of_none fun c hc => ?_
    simpa using fun heq : c = ',' => h (heq ▸ hc)
  unfold normalizeSqlIdentifier
  rcases hmarks with rfl | ⟨marks,hmarks,rfl⟩
  · rw [htrim hcomma,trimMatches_of_not_mem hdouble,trimMatches_of_not_mem hback,
      trimMatches_of_not_mem hopen,trimMatches_of_not_mem hclose]
  simp only [List.mem_cons,List.not_mem_nil,or_false] at hmarks
  -- each pair of marks passes the others by
  rcases hmarks with rfl | rfl | rfl
  · rw [htrim (not_mem_enclosed hcomma (by decide) (by decide)),trimMatches_enclosed hne hdouble,
      trimMatches_of_not_mem hback,trimMatches_of_not_mem hopen,trimMatches_of_not_mem hclose]
  · rw [htrim (not_mem_enclosed hcomma (by decide) (by decide)),
      trimMatches_of_not_mem (not_mem_enclosed hdouble (by decide) (by decide)),
      trimMatches_enclosed hne hback,trimMatches_of_not_mem hopen,trimMatches_of_not_mem hclose]
  · have hrest : '[' ∉ name ++ [']'] := by simp [hopen]
    rw [htrim (not_mem_enclosed hcomma (by decide) (by decide)),
      trimMatches_of_not_mem (not_mem_enclosed hdouble (by decide) (by decide)),
      trimMatches_of_not_mem (not_mem_enclosed hback (by decide) (by decide)),
      List.cons_append,trimMatches_cons,trimMatches_of_not_mem hrest,trimMatches_concat hne hclose]

end

section

variable {t sql : Text} {ts : List Text} {op : Text × Text} {ops : List (Text × Text)}

theorem hasAddColumnWords_iff {alter table add column : Text} :
    hasAddColumnWords alter table add column = true ↔ Keywords alter table add column := by
  simp only [hasAddColumnWords,Bool.and_eq_true]
  exact ⟨fun h => ⟨h.1.1.1,h.1.1.2,h.1.2,h.2⟩,fun h => ⟨⟨⟨h.alter,h.table⟩,h.add⟩,h.column⟩⟩

theorem Words.mem {words : List Text} (h : Words t words) {word : Text} (hmem : word ∈ words) :
    word ≠ [] ∧ ∀ c ∈ word, isWhitespace c = false := by
  induction h with
  | blank => exact absurd hmem List.not_mem_nil
  | word _ hne hword _ _ ih =>
    rcases List.mem_cons.mp hmem with rfl | hmem
    · exact ⟨hne,hword⟩
    · exact ih hmem

theorem parseAddColumnStatement_trim (t : Text) :
    parseAddColumnStatement (trim t) = parseAddColumnStatement t := by
  rw [parseAddColumnStatement,splitWhitespace_trim]
  rfl

theorem parseAddColumnStatement_of_words {alter table name add column target : Text}
    {rest : List Text} (h : Words t (alter :: table :: name :: add :: column :: target :: rest)) :
    parseAddColumnStatement t =
      if hasAddColumnWords alter table add column then
        if normalizeSqlIdentifier name = [] ∨ normalizeSqlIdentifier target = [] then none
        else some (normalizeSqlIdentifier name,normalizeSqlIdentifier target)
      else none := by
  rw [parseAddColumnStatement,splitWhitespace_of_words h]

theorem shaped_of_parseAddColumnStatement (h : parseAddColumnStatement t = some op) : Shaped t := by
  unfold parseAddColumnStatement at h
  split at h
  next alter table name add column target rest hwords =>
    refine ⟨alter,table,name,add,column,target,rest,words_iff.mpr hwords,?_⟩
    split at h
    next hkey => exact hasAddColumnWords_iff.mp hkey
    next => cases h
  next => cases h

theorem parseAddColumnStatement_of_addition (h : Addition op t) :
    parseAddColumnStatement t = some op := by
  obtain ⟨alter,table,name,add,column,target,rest,hwords,hkey,hname,htarget⟩ := h
  have hname' := normalizeSqlIdentifier_of_named hname (hwords.mem (by simp)).2
  have htarget' := normalizeSqlIdentifier_of_named htarget (hwords.mem (by simp)).2
  rw [parseAddColumnStatement_of_words hwords,if_pos (hasAddColumnWords_iff.mpr hkey),hname',
    htarget',if_neg (not_or.mpr ⟨hname.1,htarget.1⟩)]

def parsePieces (ts : List Text) : Option (List (Text × Text)) :=
  ((ts.map trim).filter (· ≠ [])).mapM parseAddColumnStatement

theorem parsePieces_blank (h : Words t []) (ts : List Text) :
    parsePieces (t :: ts) = parsePieces ts := by
  simp [parsePieces,trim_eq_nil_iff.mpr h]

theorem parsePieces_cons (h : ¬ Words t []) (ts : List Text) :
    parsePieces (t :: ts) =
      (parseAddColumnStatement t).bind fun op => (parsePieces ts).map (op :: ·) := by
  have hne : trim t ≠ [] := fun heq => h (trim_eq_nil_iff.mp heq)
  rw [parsePieces,List.map_cons,List.filter_cons_of_pos (by simpa using hne),List.mapM_cons,
    parseAddColumnStatement_trim]
  cases parseAddColumnStatement t with
  | none => rfl
  | some op =>
    change ((parsePieces ts).bind fun ops => some (op :: ops)) = _
    cases parsePieces ts <;> rfl

theorem not_blank_of_shaped (h : Shaped t) : ¬ Words t [] := by
  obtain ⟨alter,table,name,add,column,target,rest,hwords,-⟩ := h
  intro hblank
  rw [words_iff] at hwords hblank
  simp [hblank] at hwords

theorem Addition.shaped (h : Addition op t) : Shaped t := by
  obtain ⟨alter,table,name,add,column,target,rest,hwords,hkey,-⟩ := h
  exact ⟨alter,table,name,add,column,target,rest,hwords,hkey⟩

theorem parsePieces_cases (h : parsePieces (t :: ts) = some ops) :
    (Words t [] ∧ parsePieces ts = some ops) ∨
      ∃ op rest, ops = op :: rest ∧ parseAddColumnStatement t = some op ∧
        parsePieces ts = some rest := by
  by_cases hblank : Words t []
  · exact .inl ⟨hblank,parsePieces_blank hblank ts ▸ h⟩
  · rw [parsePieces_cons hblank] at h
    obtain ⟨op,hop,hrest⟩ := Option.bind_eq_some_iff.mp h
    obtain ⟨rest,hts,rfl⟩ := Option.map_eq_some_iff.mp hrest
    exact .inr ⟨op,rest,rfl,hop,hts⟩

theorem shaped_of_parsePieces (h : parsePieces ts = some ops) :
    ∀ t ∈ ts, Words t [] ∨ Shaped t := by
  induction ts generalizing ops with
  | nil => simp
  | cons t ts ih =>
    rcases parsePieces_cases h with ⟨hblank,hts⟩ | ⟨op,rest,-,hop,hts⟩
    · exact List.forall_mem_cons.mpr ⟨.inl hblank,ih hts⟩
    · exact List.forall_mem_cons.mpr ⟨.inr (shaped_of_parseAddColumnStatement hop),ih hts⟩

theorem script_of_parsePieces (hnamed : ∀ t ∈ ts, Shaped t → ∃ op, Addition op t)
    (h : parsePieces ts = some ops) : Script ts ops := by
  induction ts generalizing ops with
  | nil =>
    cases h
    exact .nil
  | cons t ts ih =>
    obtain ⟨hfirst,hnamed⟩ := List.forall_mem_cons.mp hnamed
    rcases parsePieces_cases h with ⟨hblank,hts⟩ | ⟨op,rest,rfl,hop,hts⟩
    · exact .blank hblank (ih hnamed hts)
    · obtain ⟨op',hadd⟩ := hfirst (shaped_of_parseAddColumnStatement hop)
      obtain rfl : op = op' := by
        rw [parseAddColumnStatement_of_addition hadd] at hop
        exact (Option.some.inj hop).symm
      exact .addition hadd (ih hnamed hts)

theorem parsePieces_of_script (h : Script ts ops) : parsePieces ts = some ops := by
  induction h with
  | nil => rfl
  | blank hblank _ ih => rw [parsePieces_blank hblank,ih]
  | addition hadd _ ih =>
    rw [parsePieces_cons (not_blank_of_shaped hadd.shaped),parseAddColumnStatement_of_addition hadd,
      Option.bind_some,ih,Option.map_some]

theorem Script.shaped (h : Script ts ops) : ∀ t ∈ ts, Words t [] ∨ Shaped t := by
  induction h with
  | nil => simp
  | blank hblank _ ih => exact List.forall_mem_cons.mpr ⟨.inl hblank,ih⟩
  | addition hadd _ ih => exact List.forall_mem_cons.mpr ⟨.inr hadd.shaped,ih⟩

end

section

variable {sql : Text} {ts : List Text} {ops : List (Text × Text)}

def isComment (line : Text) : Bool := "--".toList.isPrefixOf (line.dropWhile isWhitespace)

theorem isComment_iff {t : Text} : isComment t = true ↔
    ∃ indent note, (∀ c ∈ indent, isWhitespace c = true) ∧ t = indent ++ "--".toList ++ note := by
  constructor
  · intro h
    obtain ⟨note,hnote⟩ := List.isPrefixOf_iff_prefix.mp h
    refine ⟨t.takeWhile isWhitespace,note,List.all_eq_true.mp List.all_takeWhile,?_⟩
    rw [List.append_assoc,hnote,List.takeWhile_append_dropWhile]
  · rintro ⟨indent,note,hindent,rfl⟩
    have hdash : (fun c => isWhitespace c) '-' = false := by decide
    rw [isComment,List.append_assoc,List.dropWhile_append_of_pos hindent]
    simp [hdash]

theorem uncommented_iff {ls code : List Text} :
    Uncommented ls code ↔ code = ls.filter fun line => !isComment line := by
  constructor
  · intro h
    induction h with
    | nil => rfl
    | comment hindent _ ih =>
      rw [List.filter_cons_of_neg,ih]
      simpa using isComment_iff.mpr ⟨_,_,hindent,rfl⟩
    | code hcode _ ih =>
      rw [List.filter_cons_of_pos,ih]
      rw [Bool.not_eq_true',Bool.eq_false_iff]
      intro hcomment
      obtain ⟨indent,note,hindent,heq⟩ := isComment_iff.mp hcomment
      exact hcode indent note hindent heq
  · rintro rfl
    induction ls with
    | nil => exact .nil
    | cons t ls ih =>
      by_cases hcomment : isComment t = true
      · rw [List.filter_cons_of_neg (by simpa using hcomment)]
        obtain ⟨indent,note,hindent,rfl⟩ := isComment_iff.mp hcomment
        exact .comment hindent ih
      · rw [List.filter_cons_of_pos (by simpa using hcomment)]
        exact .code (fun indent note hindent heq =>
          hcomment (isComment_iff.mpr ⟨indent,note,hindent,heq⟩)) ih

theorem not_of_mem_splitOnP {p : Char → Bool} {t part : Text} (h : part ∈ t.splitOnP p) :
    ∀ c ∈ part, p c = false := by
  induction t generalizing part with
  | nil =>
    rw [List.splitOnP_nil,List.mem_singleton] at h
    simp [h]
  | cons a t ih =>
    rw [List.splitOnP_cons_eq_if_modifyHead] at h
    split at h
    · rcases List.mem_cons.mp h with rfl | h
      · simp
      · exact ih h
    next ha =>
      cases hparts : t.splitOnP p with
      | nil => simp [hparts] at h
      | cons first rest =>
        rw [hparts,List.modifyHead_cons] at h
        rcases List.mem_cons.mp h with rfl | h
        · intro c hc
          rcases List.mem_cons.mp hc with rfl | hc
          · simpa using ha
          · exact ih (hparts ▸ List.mem_cons_self) c hc
        · exact ih (hparts ▸ List.mem_cons_of_mem _ h)

theorem pieces_iff : Pieces sql ts ↔ ts = (stripSqlComments sql).splitOn ';' := by
  have hstrip {code : List Text} (h : Uncommented (lines sql) code) :
      stripSqlComments sql = List.intercalate ['\n'] code := by
    rw [uncommented_iff.mp h]
    rfl
  constructor
  · rintro ⟨hne,hnot,code,hcode,heq⟩
    rw [hstrip hcode,heq,List.splitOn_intercalate ';' hnot hne]
  · rintro rfl
    refine ⟨List.splitOn_ne_nil _ _,fun t ht => ?_,_,uncommented_iff.mpr rfl,?_⟩
    · intro hmem
      simpa using not_of_mem_splitOnP ht ';' hmem
    · rw [List.intercalate_splitOn]
      rfl

theorem parseAddColumnStatements_iff (h : Pieces sql ts) :
    parseAddColumnStatements sql = some ops ↔ ops ≠ [] ∧ parsePieces ts = some ops := by
  rw [pieces_iff] at h
  subst h
  change (parsePieces _).bind _ = _ ↔ _
  rw [Option.bind_eq_some_iff]
  constructor
  · rintro ⟨ops',hops,hsome⟩
    split_ifs at hsome with hempty
    cases hsome
    exact ⟨hempty,hops⟩
  · rintro ⟨hne,hops⟩
    exact ⟨ops,hops,if_neg hne⟩

theorem parseAddColumnStatements_of_writes (h : Writes ops sql) :
    parseAddColumnStatements sql = some ops := by
  obtain ⟨hne,ts,hpieces,hscript⟩ := h
  exact (parseAddColumnStatements_iff hpieces).mpr ⟨hne,parsePieces_of_script hscript⟩

theorem writes_of_parseAddColumnStatements (hpieces : Pieces sql ts)
    (h : parseAddColumnStatements sql = some ops) :
    (∀ t ∈ ts, Words t [] ∨ Shaped t) ∧
      ((∀ t ∈ ts, Shaped t → ∃ op, Addition op t) → Writes ops sql) := by
  obtain ⟨hne,hparse⟩ := (parseAddColumnStatements_iff hpieces).mp h
  exact ⟨shaped_of_parsePieces hparse,fun hnamed =>
    ⟨hne,ts,hpieces,script_of_parsePieces hnamed hparse⟩⟩

end

end Mostro.Migrations
