import BytecodeAssembler.Source.Token

/-!
# Tokens and how they are written

What tokens a line has is said here without the scan that finds them. A text
**holds** tokens if it consists of blanks, of words with a blank behind them and
of strings in quotes; after such a text the next token can begin. A line is such
a text, at the end of which there may be one more word, a comment, or a string
that is at fault: it has no end, or an escape that stands for nothing. These are
all the lines there are, and they say what the scan gives (`lexes_iff`).

While a line is scanned, what was read so far is a text of this kind with the
begin of a token behind it. One character keeps it so, hence a whole line does.

Tokens that are written one after the other, with blanks between them and the
quotes and backslashes in a string escaped, are therefore read back as they
were, and a line is at fault for its strings only (`tokens_written`).
-/

namespace BytecodeAssembler.Source

/-! ## Lines -/

/-- **A text of blanks**, maybe of none. -/
def AllBlank (gap : List Char) : Prop := ∀ c ∈ gap, Text.isBlank c = true

instance (gap : List Char) : Decidable (AllBlank gap) :=
  decidable_of_iff (gap.all Text.isBlank = true) List.all_eq_true

/-- **A text that is one word**: no blanks, and the first character begins
neither a comment nor a string. -/
structure IsWord (text : List Char) : Prop where
  ne_nil : text ≠ []
  solid : ∀ c ∈ text, Text.isBlank c = false
  no_comment : text.head? ≠ some ';'
  no_quote : text.head? ≠ some '"'

instance (text : List Char) : Decidable (IsWord text) :=
  decidable_of_iff
    (text ≠ [] ∧ text.all (!Text.isBlank ·) = true ∧ text.head? ≠ some ';' ∧ text.head? ≠ some '"')
    ⟨fun ⟨hne, hsolid, hcomment, hquote⟩ => ⟨hne, by simpa using hsolid, hcomment, hquote⟩,
      fun ⟨hne, hsolid, hcomment, hquote⟩ => ⟨hne, by simpa using hsolid, hcomment, hquote⟩⟩

/-- **What stands between the quotes of a string**, and the text that it is the
string of: any characters for themselves, and escapes. -/
inductive Spells : List Char → List Char → Prop where
  | nil : Spells [] []
  | plain {body text : List Char} {c : Char} (h : Spells body text) (hquote : c ≠ '"')
      (hescape : c ≠ '\\') : Spells (body ++ [c]) (text ++ [c])
  | escape {body text : List Char} {e c : Char} (h : Spells body text)
      (he : escaped? e = some c) : Spells (body ++ ['\\', e]) (text ++ [c])

/-- **The text holds the tokens**, and behind it the next one can begin. -/
inductive Holds : List Char → List Token → Prop where
  | nil : Holds [] []
  | blank {front : List Char} {found : List Token} {c : Char} (h : Holds front found)
      (hc : Text.isBlank c = true) : Holds (front ++ [c]) found
  | word {front text : List Char} {found : List Token} {c : Char} (h : Holds front found)
      (hword : IsWord text) (hc : Text.isBlank c = true) :
      Holds (front ++ (text ++ [c])) (found ++ [.word (String.ofList text)])
  | quoted {front body text : List Char} {found : List Token} (h : Holds front found)
      (hbody : Spells body text) :
      Holds (front ++ '"' :: (body ++ ['"'])) (found ++ [.quoted (String.ofList text)])

/-- **What a line comes to**: its tokens, or what is wrong with it. -/
inductive Lexes : List Char → Except Fault (List Token) → Prop where
  | complete {line : List Char} {found : List Token} (h : Holds line found) :
      Lexes line (.ok found)
  | lastWord {front text : List Char} {found : List Token} (h : Holds front found)
      (hword : IsWord text) : Lexes (front ++ text) (.ok (found ++ [.word (String.ofList text)]))
  | comment {front : List Char} {found : List Token} (h : Holds front found)
      (rest : List Char) : Lexes (front ++ ';' :: rest) (.ok found)
  | openString {front body text : List Char} {found : List Token} (h : Holds front found)
      (hbody : Spells body text) : Lexes (front ++ '"' :: body) (.error .unterminatedString)
  | openEscape {front body text : List Char} {found : List Token} (h : Holds front found)
      (hbody : Spells body text) :
      Lexes (front ++ '"' :: (body ++ ['\\'])) (.error .unterminatedString)
  | unknownEscape {front body text : List Char} {found : List Token} {e : Char}
      (h : Holds front found) (hbody : Spells body text) (he : escaped? e = none)
      (rest : List Char) :
      Lexes (front ++ '"' :: (body ++ '\\' :: e :: rest)) (.error (.unknownEscape e))

variable {front body text gap line rest : List Char} {found done : List Token} {c : Char}

/-! ## What the scan gives, comes to this -/

theorem isWord_singleton (hblank : Text.isBlank c = false) (hcomment : c ≠ ';')
    (hquote : c ≠ '"') : IsWord [c] where
  ne_nil := List.cons_ne_nil c []
  solid := List.forall_mem_singleton.2 hblank
  no_comment := fun h => hcomment (Option.some.inj h)
  no_quote := fun h => hquote (Option.some.inj h)

theorem IsWord.concat (h : IsWord text) (hblank : Text.isBlank c = false) :
    IsWord (text ++ [c]) := by
  obtain ⟨hne, hsolid, hcomment, hquote⟩ := h
  cases text with
  | nil => exact absurd rfl hne
  | cons d text =>
    have hsolid' := List.forall_mem_append.2 ⟨hsolid, List.forall_mem_singleton.2 hblank⟩
    exact ⟨List.cons_ne_nil d _, hsolid', hcomment, hquote⟩

/-- **What was read when the scan is inside of something**: a text that holds
the tokens found so far, then the begin of one. -/
inductive Reached : List Char → Scan → List Token → Prop where
  | between {read : List Char} {done : List Token} (h : Holds read done.reverse) :
      Reached read .between done
  | word {front rev : List Char} {done : List Token} (h : Holds front done.reverse)
      (hword : IsWord rev.reverse) : Reached (front ++ rev.reverse) (.word rev) done
  | quoted {front body rev : List Char} {done : List Token} (h : Holds front done.reverse)
      (hbody : Spells body rev.reverse) : Reached (front ++ '"' :: body) (.quoted rev) done
  | escape {front body rev : List Char} {done : List Token} (h : Holds front done.reverse)
      (hbody : Spells body rev.reverse) :
      Reached (front ++ '"' :: (body ++ ['\\'])) (.escape rev) done

namespace Reached

variable {read rev : List Char} {inside : Scan}

/-- At the end of a line, what was read is all there is. -/
theorem lexes_nil (h : Reached read inside done) : Lexes read (scan [] inside done) := by
  cases h with
  | between h => exact .complete h
  | word h hword =>
    rw [scan, List.reverse_cons]
    exact .lastWord h hword
  | quoted h hbody => exact .openString h hbody
  | escape h hbody => exact .openEscape h hbody

/-- One character more of a word. -/
theorem word_concat (h : Reached read (.word rev) done) (hc : Text.isBlank c = false) :
    Reached (read ++ [c]) (.word (c :: rev)) done := by
  cases h with
  | word h hword =>
    rw [List.append_assoc, ← List.reverse_cons]
    exact .word h (List.reverse_cons ▸ hword.concat hc)

/-- The blank behind a word. -/
theorem word_blank (h : Reached read (.word rev) done) (hc : Text.isBlank c = true) :
    Reached (read ++ [c]) .between (.word (String.ofList rev.reverse) :: done) := by
  cases h with
  | word h hword =>
    have hfound := h.word hword hc
    rw [← List.append_assoc, ← List.reverse_cons] at hfound
    exact .between hfound

/-- One character more of a string. -/
theorem quoted_concat (h : Reached read (.quoted rev) done) (hquote : c ≠ '"')
    (hescape : c ≠ '\\') : Reached (read ++ [c]) (.quoted (c :: rev)) done := by
  cases h with
  | quoted h hbody =>
    rw [List.append_assoc, List.cons_append]
    exact .quoted h (List.reverse_cons ▸ hbody.plain hquote hescape)

/-- The quote behind a string. -/
theorem quoted_close (h : Reached read (.quoted rev) done) :
    Reached (read ++ ['"']) .between (.quoted (String.ofList rev.reverse) :: done) := by
  cases h with
  | quoted h hbody =>
    rw [List.append_assoc, List.cons_append]
    exact .between (List.reverse_cons ▸ h.quoted hbody)

/-- The backslash of an escape. -/
theorem quoted_escape (h : Reached read (.quoted rev) done) :
    Reached (read ++ ['\\']) (.escape rev) done := by
  cases h with
  | quoted h hbody =>
    rw [List.append_assoc, List.cons_append]
    exact .escape h hbody

/-- The character behind a backslash. -/
theorem escape_concat {e : Char} (h : Reached read (.escape rev) done)
    (he : escaped? e = some c) : Reached (read ++ [e]) (.quoted (c :: rev)) done := by
  cases h with
  | escape h hbody =>
    rw [List.append_assoc, List.cons_append, List.append_assoc]
    exact .quoted h (List.reverse_cons ▸ hbody.escape he)

theorem escape_unknown {e : Char} (h : Reached read (.escape rev) done)
    (he : escaped? e = none) (rest : List Char) :
    Lexes (read ++ e :: rest) (.error (.unknownEscape e)) := by
  cases h with
  | escape h hbody =>
    rw [List.append_assoc, List.cons_append, List.append_assoc]
    exact .unknownEscape h hbody he rest

/-- **The rest of the line after what was read** comes to what the scan of the
rest gives. -/
theorem lexes_scan (h : Reached read inside done) (rest : List Char) :
    Lexes (read ++ rest) (scan rest inside done) := by
  induction rest generalizing read inside done with
  | nil =>
    rw [List.append_nil]
    exact h.lexes_nil
  | cons c rest ih =>
    -- one more character is read in every case; what changes is where the scan is then
    have hone : read ++ c :: rest = (read ++ [c]) ++ rest := List.append_cons read c rest
    cases inside with
    | between =>
      obtain ⟨hread⟩ := h
      rw [scan]
      split
      next hblank => exact hone ▸ ih (.between (hread.blank hblank))
      next hblank =>
        split
        -- a comment takes the rest of the line with it
        next hcomment => exact hcomment ▸ .comment hread rest
        next hcomment =>
          split
          next hquote => exact hone ▸ ih (hquote ▸ .quoted hread .nil)
          next hquote =>
            have hword := isWord_singleton (Bool.eq_false_iff.2 hblank) hcomment hquote
            exact hone ▸ ih (@Reached.word read [c] done hread hword)
    | word rev =>
      rw [scan]
      split
      next hblank => exact hone ▸ ih (h.word_blank hblank)
      next hblank => exact hone ▸ ih (h.word_concat (Bool.eq_false_iff.2 hblank))
    | quoted rev =>
      rw [scan]
      split
      next hquote => exact hone ▸ ih (hquote ▸ h.quoted_close)
      next hquote =>
        split
        next hescape => exact hone ▸ ih (hescape ▸ h.quoted_escape)
        next hescape => exact hone ▸ ih (h.quoted_concat hquote hescape)
    | escape rev =>
      rw [scan]
      split
      next he => exact hone ▸ ih (h.escape_concat he)
      next he => exact h.escape_unknown he rest

end Reached

/-- **What the scan of a line gives is what the line comes to.** -/
theorem lexes_tokens (line : List Char) : Lexes line (tokens line) :=
  have hbegin : Reached [] .between [] := .between .nil
  hbegin.lexes_scan line

/-! ## And nothing else -/

theorem scan_word_append (hsolid : ∀ c ∈ text, Text.isBlank c = false) (rev : List Char) :
    scan (text ++ rest) (.word rev) done = scan rest (.word (text.reverse ++ rev)) done := by
  induction text generalizing rev with
  | nil => rfl
  | cons c text ih =>
    obtain ⟨hc, hsolid⟩ := List.forall_mem_cons.1 hsolid
    rw [List.cons_append, scan, if_neg (Bool.eq_false_iff.1 hc), ih hsolid, List.reverse_cons,
      List.append_assoc]
    rfl

/-- A word is scanned as one, whatever comes behind it. -/
theorem IsWord.scan_append (h : IsWord text) (rest : List Char) (done : List Token) :
    scan (text ++ rest) .between done = scan rest (.word text.reverse) done := by
  obtain ⟨hne, hsolid, hcomment, hquote⟩ := h
  cases text with
  | nil => exact absurd rfl hne
  | cons c text =>
    obtain ⟨hc, hsolid⟩ := List.forall_mem_cons.1 hsolid
    rw [List.cons_append, scan, if_neg (Bool.eq_false_iff.1 hc),
      if_neg fun h => hcomment (congrArg some h), if_neg fun h => hquote (congrArg some h),
      scan_word_append hsolid, List.reverse_cons]

/-- The inside of a string is scanned to its text. -/
theorem Spells.scan_append (h : Spells body text) (rest : List Char) (done : List Token) :
    scan (body ++ rest) (.quoted []) done = scan rest (.quoted text.reverse) done := by
  induction h generalizing rest with
  | nil => rfl
  | plain _ hquote hescape ih =>
    rw [List.append_assoc, ih, List.singleton_append, scan, if_neg hquote, if_neg hescape,
      List.reverse_concat]
  | escape _ he ih =>
    rw [List.append_assoc, ih, List.cons_append, List.singleton_append, scan,
      if_neg (by decide), if_pos rfl, scan, he, List.reverse_concat]

/-- **The tokens that a text holds are found**, whatever comes behind it. -/
theorem Holds.scan_append (h : Holds front found) (rest : List Char) :
    tokens (front ++ rest) = scan rest .between found.reverse := by
  induction h generalizing rest with
  | nil => rfl
  | blank _ hc ih => rw [List.append_assoc, ih, List.singleton_append, scan, if_pos hc]
  | word _ hword hc ih =>
    rw [List.append_assoc, ih, List.append_assoc, hword.scan_append, List.singleton_append, scan,
      if_pos hc, List.reverse_reverse, List.reverse_concat]
  | quoted _ hbody ih =>
    rw [List.append_assoc, ih, List.cons_append, scan, if_neg (by decide), if_neg (by decide),
      if_pos rfl, List.append_assoc, hbody.scan_append, List.singleton_append, scan, if_pos rfl,
      List.reverse_reverse, List.reverse_concat]

/-- **A line comes to what its scan gives**, and to nothing else. -/
theorem lexes_iff {outcome : Except Fault (List Token)} :
    Lexes line outcome ↔ tokens line = outcome := by
  refine ⟨fun h => ?_, fun h => h ▸ lexes_tokens line⟩
  -- one way round, the scan is followed along the derivation; the other way was `lexes_tokens`
  cases h with
  | complete h =>
    have hscan := h.scan_append []
    rwa [List.append_nil, scan, List.reverse_reverse] at hscan
  | @lastWord front text found h hword =>
    have hscan := hword.scan_append [] found.reverse
    rw [List.append_nil] at hscan
    rw [h.scan_append, hscan, scan, List.reverse_cons, List.reverse_reverse,
      List.reverse_reverse]
  | comment h rest =>
    rw [h.scan_append, scan, if_neg (by decide), if_pos rfl, List.reverse_reverse]
  | @openString front body text found h hbody =>
    have hscan := hbody.scan_append [] found.reverse
    rw [List.append_nil] at hscan
    rw [h.scan_append, scan, if_neg (by decide), if_neg (by decide), if_pos rfl, hscan, scan]
  | openEscape h hbody =>
    rw [h.scan_append, scan, if_neg (by decide), if_neg (by decide), if_pos rfl,
      hbody.scan_append, scan, if_neg (by decide), if_pos rfl, scan]
  | unknownEscape h hbody he rest =>
    rw [h.scan_append, scan, if_neg (by decide), if_neg (by decide), if_pos rfl,
      hbody.scan_append, scan, if_neg (by decide), if_pos rfl, scan, he]

/-- A text without tokens is one of blanks. -/
theorem Holds.allBlank (h : Holds front found) (hnone : found = []) : AllBlank front := by
  induction h with
  | nil => exact List.forall_mem_nil _
  | blank _ hc ih => exact List.forall_mem_append.2 ⟨ih hnone, List.forall_mem_singleton.2 hc⟩
  | word | quoted => exact absurd hnone (List.concat_ne_nil _ _)

theorem Holds.blanks (h : Holds front found) (hgap : AllBlank gap) :
    Holds (front ++ gap) found := by
  induction gap generalizing front with
  | nil => rwa [List.append_nil]
  | cons c gap ih =>
    obtain ⟨hc, hgap⟩ := List.forall_mem_cons.1 hgap
    rw [List.append_cons]
    exact ih (h.blank hc) hgap

/-! ## Writing tokens -/

/-- **How a character is written in a string.** -/
def escape (c : Char) : List Char :=
  match c with
  | '"' => ['\\', '"']
  | '\\' => ['\\', '\\']
  | '\n' => ['\\', 'n']
  | '\t' => ['\\', 't']
  | c => [c]

namespace Token

/-- **How a token is written.** -/
def chars : Token → List Char
  | .word text => text.toList
  | .quoted text => '"' :: (text.toList.flatMap escape ++ ['"'])

/-- **The tokens that can be written**: every string, and the words that are
one. -/
def Writable : Token → Prop
  | .word text => IsWord text.toList
  | .quoted _ => True

instance : (t : Token) → Decidable t.Writable
  | .word text => inferInstanceAs (Decidable (IsWord text.toList))
  | .quoted _ => .isTrue trivial

end Token

/-- **The tokens are written one after the other**, with blanks between them. -/
inductive Written : List Token → List Char → Prop where
  | nil : Written [] []
  | single (t : Token) : Written [t] t.chars
  | cons (t : Token) {u : Token} {later : List Token} {gap text : List Char} (hne : gap ≠ [])
      (hgap : AllBlank gap) (h : Written (u :: later) text) :
      Written (t :: u :: later) (t.chars ++ (gap ++ text))

/-- **What may stand behind the tokens**: blanks, and then perhaps a comment. A
comment is part of a word that it follows without a blank. -/
inductive Trails (ts : List Token) : List Char → Prop where
  | blanks {gap : List Char} (hgap : AllBlank gap) : Trails ts gap
  | comment {gap : List Char} (hgap : AllBlank gap)
      (hword : gap = [] → ∀ text, ts.getLast? ≠ some (.word text)) (rest : List Char) :
      Trails ts (gap ++ ';' :: rest)

/-- **A line that ends inside of a string.** -/
def EndsInString (line : List Char) : Prop :=
  ∃ front found body text, Holds front found ∧ Spells body text
    ∧ (line = front ++ '"' :: body ∨ line = front ++ '"' :: (body ++ ['\\']))

/-- **A line with a string in which a backslash stands before `e`**, and this is
no escape. -/
def HasUnknownEscape (line : List Char) (e : Char) : Prop :=
  ∃ front found body text rest, Holds front found ∧ Spells body text ∧ escaped? e = none
    ∧ line = front ++ '"' :: (body ++ '\\' :: e :: rest)

theorem escape_spells (h : Spells body text) (c : Char) :
    Spells (body ++ escape c) (text ++ [c]) := by
  unfold escape
  split
  next => exact h.escape rfl
  next => exact h.escape rfl
  next => exact h.escape rfl
  next => exact h.escape rfl
  next hquote hescape _ _ => exact h.plain hquote hescape

/-- **A string is spelled by its characters as they are written.** -/
theorem spells_flatMap_escape (text : List Char) : Spells (text.flatMap escape) text := by
  have hbehind {front body : List Char} (h : Spells body front) :
      Spells (body ++ text.flatMap escape) (front ++ text) := by
    induction text generalizing front body with
    | nil => rwa [List.flatMap_nil, List.append_nil, List.append_nil]
    | cons c text ih =>
      rw [List.flatMap_cons, ← List.append_assoc, List.append_cons]
      exact ih (escape_spells h c)
  exact hbehind .nil

namespace Holds

/-- **One token more**, with blanks behind it. Only behind a word there has to
be one. -/
theorem token (h : Holds front found) {t : Token} (ht : t.Writable) (hgap : AllBlank gap)
    (hword : gap = [] → ∀ text, t ≠ .word text) :
    Holds (front ++ (t.chars ++ gap)) (found ++ [t]) := by
  cases t with
  | word text =>
    cases gap with
    | nil => exact absurd rfl (hword rfl text)
    | cons c gap =>
      obtain ⟨hc, hgap⟩ := List.forall_mem_cons.1 hgap
      have hfound := (h.word ht hc).blanks hgap
      rwa [String.ofList_toList, List.append_assoc, List.append_assoc] at hfound
  | quoted text =>
    have hfound := (h.quoted (spells_flatMap_escape text.toList)).blanks hgap
    rwa [String.ofList_toList, List.append_assoc] at hfound

/-- What may stand behind the tokens adds none. -/
theorem lexes_trails (h : Holds front found) {ts : List Token} {tail : List Char}
    (htail : Trails ts tail) : Lexes (front ++ tail) (.ok found) := by
  cases htail with
  | blanks hgap => exact .complete (h.blanks hgap)
  | comment hgap _ rest =>
    rw [← List.append_assoc]
    exact .comment (h.blanks hgap) rest

end Holds

/-- The last token and what stands behind it. -/
theorem lexes_single (h : Holds front found) {t : Token} (ht : t.Writable) {tail : List Char}
    (htail : Trails [t] tail) : Lexes (front ++ (t.chars ++ tail)) (.ok (found ++ [t])) := by
  cases htail with
  | blanks hgap =>
    by_cases hend : tail = [] ∧ ∃ text, t = .word text
    · obtain ⟨rfl, text, rfl⟩ := hend
      have hlast := Lexes.lastWord h ht
      rw [String.ofList_toList] at hlast
      rwa [List.append_nil]
    · exact .complete (h.token ht hgap fun hnil text hword => hend ⟨hnil, text, hword⟩)
  | comment hgap hword rest =>
    have hfound := h.token ht hgap fun hnil text ht => hword hnil text (congrArg some ht)
    rw [← List.append_assoc (t.chars), ← List.append_assoc front]
    exact .comment hfound rest

/-- The tokens that a text holds can be written. -/
theorem Holds.writable (h : Holds front found) : ∀ t ∈ found, t.Writable := by
  induction h with
  | nil => exact List.forall_mem_nil _
  | blank _ _ ih => exact ih
  | word _ hword _ ih =>
    refine List.forall_mem_append.2 ⟨ih, List.forall_mem_singleton.2 ?_⟩
    rwa [Token.Writable, String.toList_ofList]
  | quoted _ _ ih =>
    exact List.forall_mem_append.2 ⟨ih, List.forall_mem_singleton.2 trivial⟩

/-- **The tokens of a line can be written.** -/
theorem writable_of_tokens (h : tokens line = .ok found) : ∀ t ∈ found, t.Writable := by
  cases lexes_iff.2 h with
  | complete hfound | comment hfound => exact hfound.writable
  | lastWord hfound hword =>
    refine List.forall_mem_append.2 ⟨hfound.writable, List.forall_mem_singleton.2 ?_⟩
    rwa [Token.Writable, String.toList_ofList]

/-- **Tokens that are written one after the other are found.** -/
theorem Written.lexes {ts : List Token} (h : Written ts text) (hts : ∀ t ∈ ts, t.Writable)
    {tail : List Char} (htail : Trails ts tail) (hfront : Holds front found) :
    Lexes (front ++ (text ++ tail)) (.ok (found ++ ts)) := by
  induction h generalizing front found with
  | nil =>
    rw [List.append_nil]
    exact hfront.lexes_trails htail
  | single t => exact lexes_single hfront (hts t List.mem_cons_self) htail
  | @cons t u later gap text hne hgap _ ih =>
    obtain ⟨ht, hlater⟩ := List.forall_mem_cons.1 hts
    have hfound := hfront.token ht hgap fun hnil => absurd hnil hne
    have htail' : Trails (u :: later) tail := by
      cases htail with
      | blanks hblank => exact .blanks hblank
      | comment hblank hword rest => exact .comment hblank (List.getLast?_cons_cons ▸ hword) rest
    have hlexes := ih hlater htail' hfound
    simpa only [List.append_assoc, List.singleton_append] using hlexes

/-- **A line is at fault for its strings only.** -/
theorem tokens_eq_error_iff {fault : Fault} :
    tokens line = .error fault ↔ fault = .unterminatedString ∧ EndsInString line
      ∨ ∃ e, fault = .unknownEscape e ∧ HasUnknownEscape line e := by
  rw [← lexes_iff]
  constructor
  · intro h
    cases h with
    | openString h hbody => exact .inl ⟨rfl, _, _, _, _, h, hbody, .inl rfl⟩
    | openEscape h hbody => exact .inl ⟨rfl, _, _, _, _, h, hbody, .inr rfl⟩
    | unknownEscape h hbody he rest => exact .inr ⟨_, rfl, _, _, _, _, rest, h, hbody, he, rfl⟩
  · rintro (⟨rfl, _, _, _, _, h, hbody, rfl | rfl⟩ | ⟨e, rfl, _, _, _, _, rest, h, hbody, he, rfl⟩)
    · exact .openString h hbody
    · exact .openEscape h hbody
    · exact .unknownEscape h hbody he rest

/-- **Writing tokens is undone by reading them.** However many blanks stand in
front of tokens, between them and behind them, and whether or not a comment
follows, the tokens of the line are these. And a line is at fault only if it
ends inside of a string or has an unknown escape in one. -/
theorem tokens_written {ts : List Token} (hts : ∀ t ∈ ts, t.Writable) {indent text tail : List Char}
    (hindent : AllBlank indent) (htext : Written ts text) (htail : Trails ts tail) :
    tokens (indent ++ (text ++ tail)) = .ok ts
      ∧ ∀ line fault, tokens line = .error fault ↔
          fault = .unterminatedString ∧ EndsInString line
            ∨ ∃ e, fault = .unknownEscape e ∧ HasUnknownEscape line e :=
  ⟨lexes_iff.1 (htext.lexes hts htail (Holds.nil.blanks hindent)), fun _ _ => tokens_eq_error_iff⟩

/-- A word with a semicolon at its end, a string of which every character but one
has to be escaped, and a word with a quote in it. The comment is no string. -/
theorem tokens_written_hard :
    tokens "\tLA;  \"\\\"\\\\;\\n\\t\" x\"y ;\"".toList
      = .ok [.word "LA;", .quoted "\"\\;\n\t", .word "x\"y"] := by
  have hts : ∀ t ∈ [Token.word "LA;", .quoted "\"\\;\n\t", .word "x\"y"], t.Writable :=
    List.forall_mem_cons.2 ⟨by decide, List.forall_mem_cons.2 ⟨by decide,
      List.forall_mem_singleton.2 (by decide)⟩⟩
  have htext : Written [.word "LA;", .quoted "\"\\;\n\t", .word "x\"y"] _ :=
    .cons _ (List.cons_ne_nil ' ' [' ']) (by decide)
      (.cons _ (List.cons_ne_nil ' ' []) (by decide) (.single _))
  have htail : Trails [.word "LA;", .quoted "\"\\;\n\t", .word "x\"y"] ([' '] ++ ';' :: ['"']) :=
    .comment (by decide) (fun h => absurd h (List.cons_ne_nil ' ' [])) _
  exact (tokens_written hts (show AllBlank ['\t'] by decide) htext htail).1

end BytecodeAssembler.Source
