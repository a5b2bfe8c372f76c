import BytecodeAssembler.Proofs.Source.Integer
import BytecodeAssembler.Proofs.Source.Tokens
import Mathlib.Data.List.TakeWhile

/-!
# Lines of a switch

The targets of a switch stand on lines of their own. A line is a label in a
table, a key and a label with a colon between them in a lookup, and in either
the word `default`, a colon and a label, which ends the switch. Blanks around
the colon are free (`EntryLine`).

To make them free, the reader takes all words of the line together before it
looks for the colon. So it does not see the blanks that stand elsewhere: any
blanks may be put into a line that it takes (`EntryText`), and a key or a label
may be made of several words. Such a line follows the grammar exactly if its key
and its label are **whole**, each in one word (`readLine_switchEntry`).
-/

namespace BytecodeAssembler.Source

/-! ## What a line adds to a switch -/

/-- **What a switch takes from a line.** -/
inductive TakenEntry where
  /-- The next target of a table. -/
  | plain (label : String)
  /-- A target of a lookup. -/
  | keyed (key : Int64) (label : String)
  /-- The target for all other keys. -/
  | fallback (label : String)
  deriving DecidableEq

/-- The line has to be one for the switch, and the key of a lookup an integer. -/
def takenEntry (head : SwitchHead) (line : List Token) : Except Fault TakenEntry :=
  match readSwitchEntry line, head with
  | .error fault, _ => .error fault
  | .ok (.fallback label), _ => .ok (.fallback label)
  | .ok (.keyed key label), .lookup =>
    (readInteger (String.ofList key)).map (.keyed · (String.ofList label))
  | .ok (.keyed _ _), .table _ _ => .error .tableTargetWithKey
  | .ok (.plain label), .table _ _ => .ok (.plain label)
  | .ok (.plain _), .lookup => .error .lookupTargetWithoutKey

namespace Reading

/-- The reading when a line has begun. -/
def begun (r : Reading) : Reading := { r with line := r.line + 1 }.run (.line (r.line + 1))

/-- **The reading after a line that the open switch took.** -/
def take (r : Reading) (s : OpenSwitch) : TakenEntry → Reading
  | .plain label => { r with switch := some { s with targets := s.targets.push label } }
  | .keyed key label => { r with switch := some { s with pairs := s.pairs.push (key, label) } }
  | .fallback label => { r with switch := none }.endSwitch s label

variable {r : Reading} {s : OpenSwitch} {first : Token} {rest : List Token}

theorem readTokens_eq_switchLine (hswitch : r.switch = some s)
    (hpoint : beginsWithPoint first = false) :
    r.readTokens first rest = { r with switch := none }.switchLine s (first :: rest) := by
  rw [readTokens, hswitch]
  exact if_neg (Bool.eq_false_iff.1 hpoint)

/-- **A line is taken, or it is at fault** and the switch stays as it was. -/
theorem switchLine_cases (hswitch : r.switch = some s) (line : List Token) :
    (∃ fault, takenEntry s.head line = .error fault
        ∧ { r with switch := none }.switchLine s line = r.report fault)
      ∨ ∃ entry, takenEntry s.head line = .ok entry
        ∧ { r with switch := none }.switchLine s line = r.take s entry := by
  have hsame (fault : Fault) : { r with switch := some s }.report fault = r.report fault := by
    rw [← hswitch]
  obtain ⟨start, head, targets, pairs⟩ := s
  unfold takenEntry switchLine
  cases readSwitchEntry line with
  | error fault => exact .inl ⟨fault, rfl, hsame fault⟩
  | ok entry =>
    cases entry with
    | fallback label => exact .inr ⟨.fallback label, rfl, rfl⟩
    | plain label =>
      cases head with
      | table low high => exact .inr ⟨.plain label, rfl, rfl⟩
      | lookup => exact .inl ⟨_, rfl, hsame _⟩
    | keyed key label =>
      cases head with
      | table low high => exact .inl ⟨_, rfl, hsame _⟩
      | lookup =>
        dsimp only
        cases readInteger (String.ofList key) with
        | error fault => exact .inl ⟨fault, rfl, hsame fault⟩
        | ok value => exact .inr ⟨.keyed value (String.ofList label), rfl, rfl⟩

/-- A line that begins while a switch is open, and not with a point, is one of
the switch. -/
theorem readLine_eq_switchLine {line : List Char} (hswitch : r.switch = some s)
    (hline : tokens line = .ok (first :: rest)) (hpoint : beginsWithPoint first = false) :
    r.readLine line = { r.begun with switch := none }.switchLine s (first :: rest) := by
  have hbegun : r.begun.switch = some s := hswitch
  rw [← readTokens_eq_switchLine hbegun hpoint, readLine, hline]
  rfl

end Reading

/-! ## The grammar -/

/-- **Two texts with a colon between them**, as one to three words. -/
inductive AroundColon (key label : List Char) : List (List Char) → Prop where
  | tight : AroundColon key label [key ++ ':' :: label]
  | gapBefore : AroundColon key label [key, ':' :: label]
  | gapBehind : AroundColon key label [key ++ [':'], label]
  | gaps : AroundColon key label [key, [':'], label]

/-- **The words of a line that follows the grammar**, and what it says. -/
inductive EntryLine : SwitchHead → List (List Char) → TakenEntry → Prop where
  | plain (low : Int64) (high : Option Int64) {label : List Char} (hcolon : ':' ∉ label) :
      EntryLine (.table low high) [label] (.plain (String.ofList label))
  | keyed {key label : List Char} {value : Int64} {parts : List (List Char)}
      (hkey : readInteger (String.ofList key) = .ok value) (hlabel : label ≠ [])
      (hparts : AroundColon key label parts) :
      EntryLine .lookup parts (.keyed value (String.ofList label))
  | fallback (head : SwitchHead) {label : List Char} {parts : List (List Char)}
      (hlabel : label ≠ []) (hparts : AroundColon "default".toList label parts) :
      EntryLine head parts (.fallback (String.ofList label))

/-- **A line of the grammar without its blanks**, and what it says. -/
inductive EntryText : SwitchHead → List Char → TakenEntry → Prop where
  | plain (low : Int64) (high : Option Int64) {label : List Char} (hcolon : ':' ∉ label) :
      EntryText (.table low high) label (.plain (String.ofList label))
  | keyed {key label : List Char} {value : Int64}
      (hkey : readInteger (String.ofList key) = .ok value) (hlabel : label ≠ []) :
      EntryText .lookup (key ++ ':' :: label) (.keyed value (String.ofList label))
  | fallback (head : SwitchHead) {label : List Char} (hlabel : label ≠ []) :
      EntryText head ("default".toList ++ ':' :: label) (.fallback (String.ofList label))

/-- **The key and the label are each in one word**: what stands in front of the
first colon of the line in the first word, and what stands behind it in the
last. -/
structure Whole (parts : List (List Char)) : Prop where
  key : parts.flatten.takeWhile (· != ':') <+: parts.headD []
  label : (parts.flatten.dropWhile (· != ':')).drop 1 <:+ parts.getLastD []

variable {key label : List Char} {parts : List (List Char)} {head : SwitchHead}
  {entry : TakenEntry}

/-! ## Cutting at the colon -/

theorem ne_colon_of_mem (hkey : ':' ∉ key) : ∀ c ∈ key, (c != ':') = true :=
  fun _ hc => bne_iff_ne.2 fun h => hkey (h ▸ hc)

theorem takeWhile_colon (hkey : ':' ∉ key) :
    (key ++ ':' :: label).takeWhile (· != ':') = key := by
  rw [List.takeWhile_append_of_pos (ne_colon_of_mem hkey)]
  exact List.append_nil key

theorem dropWhile_colon (hkey : ':' ∉ key) :
    (key ++ ':' :: label).dropWhile (· != ':') = ':' :: label := by
  rw [List.dropWhile_append_of_pos (ne_colon_of_mem hkey)]
  rfl

/-- A text is cut at its first colon, if it has one. -/
theorem splitBefore?_colon (hkey : ':' ∉ key) :
    splitBefore? ':' (key ++ ':' :: label) = some (key, ':' :: label) := by
  rw [splitBefore?, if_pos (by simp), takeWhile_colon hkey, dropWhile_colon hkey]

theorem splitBefore?_no_colon {text : List Char} (h : ':' ∉ text) :
    splitBefore? ':' text = none :=
  if_neg fun hcontains => h (List.contains_iff_mem.1 hcontains)

/-- An integer has no colon in it. -/
theorem no_colon_of_readInteger {value : Int64}
    (h : readInteger (String.ofList key) = .ok value) : ':' ∉ key := by
  intro hcolon
  obtain ⟨s, htext, -⟩ := readInteger_eq_ok_iff.1 h
  rw [String.toList_ofList] at htext
  have hplain := s.all (P := fun c => c != ':') (htext ▸ hcolon) rfl rfl
  exact bne_iff_ne.1 hplain rfl

/-! ## What is taken -/

/-- The token that is a word with these characters. -/
def wordToken (text : List Char) : Token := .word (String.ofList text)

theorem words_map_wordToken (parts : List (List Char)) :
    words (parts.map wordToken) = .ok (parts.map String.ofList) := by
  refine mapM_eq_ok_iff.2 (List.forall₂_map_left_iff.2 (List.forall₂_map_right_iff.2 ?_))
  exact List.forall₂_same.2 fun part _ => rfl

/-- A line is taken only if it has nothing but words. -/
theorem exists_parts_of_words {line : List Token} {texts : List String}
    (h : words line = .ok texts) : ∃ parts : List (List Char), line = parts.map wordToken := by
  refine ⟨texts.map String.toList, ?_⟩
  have hall := mapM_eq_ok_iff.1 h
  clear h
  induction hall with
  | nil => rfl
  | @cons token text _ _ htoken _ ih =>
    cases token with
    | quoted => cases htoken
    | word =>
      cases htoken
      rw [List.map_cons, List.map_cons, ← ih, wordToken, String.ofList_toList]

theorem map_toList_map_ofList (parts : List (List Char)) :
    (parts.map String.ofList).map String.toList = parts := by
  have hid : String.toList ∘ String.ofList = id := funext fun _ => String.toList_ofList
  rw [List.map_map, hid, List.map_id]

/-- **The words of a line are taken together**, whatever stands in which of
them. -/
theorem readSwitchEntry_no_colon (h : ':' ∉ parts.flatten) :
    readSwitchEntry (parts.map wordToken) = .ok (.plain (String.ofList parts.flatten)) := by
  simp only [readSwitchEntry, words_map_wordToken, bind, Except.bind, map_toList_map_ofList,
    splitBefore?_no_colon h]
  rfl

theorem readSwitchEntry_colon (h : parts.flatten = key ++ ':' :: label) (hkey : ':' ∉ key) :
    readSwitchEntry (parts.map wordToken)
      = if label = [] then .error .missingTarget
        else if key = "default".toList then .ok (.fallback (String.ofList label))
        else .ok (.keyed key label) := by
  simp only [readSwitchEntry, words_map_wordToken, bind, Except.bind, map_toList_map_ofList, h,
    splitBefore?_colon hkey, List.drop_succ_cons, List.drop_zero, List.isEmpty_iff]
  rfl

/-- **The lines that a switch takes**: those whose words, taken together, are a
line of the grammar without its blanks. -/
theorem takenEntry_map_wordToken :
    takenEntry head (parts.map wordToken) = .ok entry ↔ EntryText head parts.flatten entry := by
  constructor
  · intro h
    unfold takenEntry at h
    by_cases hcolon : ':' ∈ parts.flatten
    · obtain ⟨key, label, hflat, hkey⟩ := List.eq_append_cons_of_mem hcolon
      rw [readSwitchEntry_colon hflat hkey] at h
      rw [hflat]
      by_cases hlabel : label = []
      · rw [if_pos hlabel] at h
        cases h
      · rw [if_neg hlabel] at h
        by_cases hdefault : key = "default".toList
        · rw [if_pos hdefault] at h
          cases h
          rw [hdefault]
          exact .fallback head hlabel
        · rw [if_neg hdefault] at h
          cases head with
          | table low high => cases h
          | lookup =>
            obtain ⟨value, hvalue, rfl⟩ := map_eq_ok_iff.1 h
            exact .keyed hvalue hlabel
    · rw [readSwitchEntry_no_colon hcolon] at h
      cases head with
      | table low high =>
        cases h
        exact .plain low high hcolon
      | lookup => cases h
  · intro h
    generalize hflat : parts.flatten = text at h
    unfold takenEntry
    cases h with
    | plain low high hcolon => rw [readSwitchEntry_no_colon (hflat ▸ hcolon), hflat]
    | keyed hkey hlabel =>
      -- the word `default` is no integer
      have hdefault {key : List Char} {value : Int64}
          (h : readInteger (String.ofList key) = .ok value) : key ≠ "default".toList := by
        rintro rfl
        cases h
      rw [readSwitchEntry_colon hflat (no_colon_of_readInteger hkey), if_neg hlabel,
        if_neg (hdefault hkey)]
      exact map_eq_ok_iff.2 ⟨_, hkey, rfl⟩
    | fallback _ hlabel =>
      rw [readSwitchEntry_colon hflat (by decide), if_neg hlabel, if_pos rfl]

/-- **What a switch takes is made of words.** -/
theorem exists_parts_of_takenEntry {line : List Token} (h : takenEntry head line = .ok entry) :
    ∃ parts : List (List Char), line = parts.map wordToken := by
  unfold takenEntry at h
  cases hread : readSwitchEntry line with
  | error fault =>
    rw [hread] at h
    cases h
  | ok read =>
    obtain ⟨texts, hwords, -⟩ := bind_eq_ok_iff.1 hread
    exact exists_parts_of_words hwords

/-! ## What follows the grammar -/

theorem AroundColon.flatten_eq (h : AroundColon key label parts) :
    parts.flatten = key ++ ':' :: label := by
  cases h <;> simp

theorem EntryLine.entryText (h : EntryLine head parts entry) :
    EntryText head parts.flatten entry := by
  cases h with
  | plain low high hcolon =>
    rw [List.flatten_singleton]
    exact .plain low high hcolon
  | keyed hkey hlabel hparts => exact hparts.flatten_eq ▸ .keyed hkey hlabel
  | fallback head hlabel hparts => exact hparts.flatten_eq ▸ .fallback head hlabel

/-- Blanks around the colon break neither the key nor the label. -/
theorem AroundColon.whole (h : AroundColon key label parts) (hkey : ':' ∉ key) : Whole parts := by
  constructor
  · rw [h.flatten_eq, takeWhile_colon hkey]
    cases h with
    | tight | gapBehind => exact List.prefix_append key _
    | gapBefore | gaps => exact List.prefix_refl key
  · rw [h.flatten_eq, dropWhile_colon hkey]
    cases h with
    | tight => exact ⟨key ++ [':'], by simp⟩
    | gapBefore => exact List.suffix_cons ':' label
    | gapBehind | gaps => exact List.suffix_refl label

theorem EntryLine.whole (h : EntryLine head parts entry) : Whole parts := by
  cases h with
  | @plain low high label hcolon =>
    have hall := ne_colon_of_mem hcolon
    constructor
    · rw [List.flatten_singleton, List.takeWhile_eq_self_iff.2 hall]
      exact List.prefix_refl label
    · rw [List.flatten_singleton, List.dropWhile_eq_nil_iff.2 hall]
      exact List.nil_suffix
  | keyed hkey _ hparts => exact hparts.whole (no_colon_of_readInteger hkey)
  | fallback _ _ hparts => exact hparts.whole (by decide)

theorem eq_nil_of_flatten (hne : ∀ part ∈ parts, part ≠ []) (h : parts.flatten = []) :
    parts = [] :=
  List.eq_nil_iff_forall_not_mem.2 fun part hpart =>
    hne part hpart (List.flatten_eq_nil_iff.1 h part hpart)

/-- Words are not empty, so what has one character is one word. -/
theorem eq_singleton_of_flatten (hne : ∀ part ∈ parts, part ≠ []) {c : Char}
    (h : parts.flatten = [c]) : parts = [[c]] := by
  cases parts with
  | nil => cases h
  | cons part rest =>
    obtain ⟨hpart, hrest⟩ := List.forall_mem_cons.1 hne
    rcases List.append_eq_singleton_iff.1 h with ⟨hnil, -⟩ | ⟨rfl, hnil⟩
    · exact absurd hnil hpart
    · rw [eq_nil_of_flatten hrest hnil]

/-- **A key and a label that are whole** have blanks around the colon only. -/
theorem aroundColon_of_whole (hne : ∀ part ∈ parts, part ≠ [])
    (hflat : parts.flatten = key ++ ':' :: label) (hkey : ':' ∉ key) (hwhole : Whole parts) :
    AroundColon key label parts := by
  obtain ⟨hfirst, hlast⟩ := hwhole
  rw [hflat, takeWhile_colon hkey] at hfirst
  rw [hflat, dropWhile_colon hkey] at hlast
  cases parts with
  | nil => simp at hflat
  | cons first rest =>
    obtain ⟨x, rfl⟩ : ∃ x, key ++ x = first := hfirst
    rcases List.eq_nil_or_concat' rest with rfl | ⟨between, last, rfl⟩
    · have hx : x = ':' :: label := by simpa using hflat
      exact hx ▸ .tight
    · rw [← List.cons_append, List.getLastD_concat] at hlast
      obtain ⟨y, rfl⟩ : ∃ y, y ++ label = last := hlast
      -- what is left of the words without the key and the label is the colon
      have hcolon : x ++ (between.flatten ++ y) = [':'] := by
        have hrest : x ++ (between.flatten ++ (y ++ label)) = [':'] ++ label := by
          simpa using hflat
        rw [← List.append_assoc, ← List.append_assoc] at hrest
        rw [← List.append_assoc]
        exact List.append_cancel_right hrest
      have hbetween : ∀ part ∈ between, part ≠ [] := fun part hpart =>
        hne part (List.mem_cons_of_mem _ (List.mem_append_left _ hpart))
      rcases List.append_eq_singleton_iff.1 hcolon with ⟨rfl, hbehind⟩ | ⟨rfl, hbehind⟩
      · rcases List.append_eq_singleton_iff.1 hbehind with ⟨hnil, rfl⟩ | ⟨hone, rfl⟩
        · rw [eq_nil_of_flatten hbetween hnil, List.append_nil]
          exact .gapBefore
        · rw [eq_singleton_of_flatten hbetween hone, List.append_nil]
          exact .gaps
      · obtain ⟨hnil, rfl⟩ := List.append_eq_nil_iff.1 hbehind
        rw [eq_nil_of_flatten hbetween hnil]
        exact .gapBehind

/-- **A line that is taken follows the grammar exactly if its key and its label
are whole.** -/
theorem entryLine_iff (hsome : parts ≠ []) (hne : ∀ part ∈ parts, part ≠ []) :
    EntryLine head parts entry ↔ EntryText head parts.flatten entry ∧ Whole parts := by
  refine ⟨fun h => ⟨h.entryText, h.whole⟩, fun ⟨h, hwhole⟩ => ?_⟩
  generalize hflat : parts.flatten = text at h
  cases h with
  | plain low high hcolon =>
    have hfirst := hwhole.key
    rw [hflat, List.takeWhile_eq_self_iff.2 (ne_colon_of_mem hcolon), ← hflat] at hfirst
    cases parts with
    | nil => exact absurd rfl hsome
    | cons first rest =>
      -- the first word is the whole line
      have hrest : rest.flatten = [] := by
        have hlength := hfirst.length_le
        rw [List.flatten_cons, List.length_append] at hlength
        exact List.eq_nil_of_length_eq_zero (by simpa using hlength)
      obtain rfl := eq_nil_of_flatten (List.forall_mem_cons.1 hne).2 hrest
      obtain rfl := List.flatten_singleton.symm.trans hflat
      exact .plain low high hcolon
  | keyed hkey hlabel =>
    exact .keyed hkey hlabel
      (aroundColon_of_whole hne hflat (no_colon_of_readInteger hkey) hwhole)
  | fallback _ hlabel =>
    exact .fallback head hlabel (aroundColon_of_whole hne hflat (by decide) hwhole)

/-- **A line of a switch is taken for all its words together.** While a switch is
open, a line is either at fault or adds what it says to the switch. It is taken
exactly if its words are words of the grammar with blanks put in anywhere, and
it follows the grammar exactly if in addition its key and its label are each in
one word. -/
theorem readLine_switchEntry {r : Reading} {s : OpenSwitch} {line : List Char} {first : Token}
    {rest : List Token} (hswitch : r.switch = some s)
    (hline : tokens line = .ok (first :: rest)) (hpoint : Reading.beginsWithPoint first = false) :
    (∀ fault, takenEntry s.head (first :: rest) = .error fault →
        r.readLine line = r.begun.report fault)
      ∧ ∀ entry,
        (takenEntry s.head (first :: rest) = .ok entry → r.readLine line = r.begun.take s entry)
        ∧ (takenEntry s.head (first :: rest) = .ok entry
          ↔ ∃ parts : List (List Char), first :: rest = parts.map wordToken
            ∧ EntryText s.head parts.flatten entry)
        ∧ ∀ parts : List (List Char), first :: rest = parts.map wordToken →
          (EntryLine s.head parts entry
            ↔ takenEntry s.head (first :: rest) = .ok entry ∧ Whole parts) := by
  have hbegun : r.begun.switch = some s := hswitch
  rw [Reading.readLine_eq_switchLine hswitch hline hpoint]
  have hcases := Reading.switchLine_cases hbegun (first :: rest)
  refine ⟨fun fault hfault => ?_, fun entry => ⟨fun htaken => ?_, ⟨fun htaken => ?_, ?_⟩,
    fun parts hparts => ?_⟩⟩
  · rcases hcases with ⟨fault', hfault', h⟩ | ⟨entry, htaken, -⟩
    · rwa [Except.error.inj (hfault.symm.trans hfault')]
    · cases hfault.symm.trans htaken
  · rcases hcases with ⟨fault, hfault, -⟩ | ⟨entry', htaken', h⟩
    · cases hfault.symm.trans htaken
    · rwa [Except.ok.inj (htaken.symm.trans htaken')]
  · obtain ⟨parts, hparts⟩ := exists_parts_of_takenEntry htaken
    exact ⟨parts, hparts, takenEntry_map_wordToken.1 (hparts ▸ htaken)⟩
  · rintro ⟨parts, hparts, h⟩
    exact hparts ▸ takenEntry_map_wordToken.2 h
  · have hwritable := writable_of_tokens hline
    rw [hparts] at hwritable ⊢
    -- no line has an empty word, so the parts are cut where something stands
    have hne : ∀ part ∈ parts, part ≠ [] := by
      intro part hpart
      have hword : (wordToken part).Writable := hwritable _ (List.mem_map_of_mem hpart)
      rw [wordToken, Token.Writable, String.toList_ofList] at hword
      exact hword.ne_nil
    have hsome : parts ≠ [] := by
      rintro rfl
      cases hparts
    rw [takenEntry_map_wordToken]
    exact entryLine_iff hsome hne

/-- A lookup without pairs that began on the first line. -/
def emptyLookup : OpenSwitch := ⟨1, .lookup, #[], #[]⟩

/-- A reading inside of this lookup. -/
def lookupReading : Reading :=
  { Reading.start (Assembler.start ⟨false, ⟨45, 3⟩, none⟩) with
    line := 1
    switch := some emptyLookup }

/-- A blank behind the colon, and a label with a colon in it. -/
theorem readLine_switchEntry_gapBehind :
    lookupReading.readLine "-7: a:b".toList
        = lookupReading.begun.take emptyLookup (.keyed (-7) "a:b")
      ∧ EntryLine .lookup ["-7:".toList, "a:b".toList] (.keyed (-7) "a:b") := by
  have hswitch : lookupReading.switch = some emptyLookup := rfl
  have hline : tokens "-7: a:b".toList = .ok [.word "-7:", .word "a:b"] := rfl
  have htaken : takenEntry .lookup [.word "-7:", .word "a:b"] = .ok (.keyed (-7) "a:b") := rfl
  obtain ⟨htake, -, hwhole⟩ := (readLine_switchEntry hswitch hline rfl).2 (.keyed (-7) "a:b")
  exact ⟨htake htaken, (hwhole ["-7:".toList, "a:b".toList] rfl).2
    ⟨htaken, by decide, by decide⟩⟩

/-- **Two words are taken for one key**, on a line that does not follow the
grammar of any switch. -/
theorem readLine_joinedKey :
    lookupReading.readLine "1 0 : ten".toList
        = lookupReading.begun.take emptyLookup (.keyed 10 "ten")
      ∧ tokens "1 0 : ten".toList
        = .ok (["1".toList, "0".toList, ":".toList, "ten".toList].map wordToken)
      ∧ ∀ head entry,
        ¬EntryLine head ["1".toList, "0".toList, ":".toList, "ten".toList] entry := by
  have hline : tokens "1 0 : ten".toList
      = .ok (["1".toList, "0".toList, ":".toList, "ten".toList].map wordToken) := rfl
  have hbroken : ¬Whole ["1".toList, "0".toList, ":".toList, "ten".toList] :=
    fun hwhole => absurd hwhole.key (by decide)
  refine ⟨?_, hline, fun head entry h => hbroken h.whole⟩
  rw [Reading.readLine_eq_switchLine (rfl : lookupReading.switch = some emptyLookup) hline rfl]
  rfl

end BytecodeAssembler.Source
