import BytecodeAssembler.Proofs.Source.LineEffect
import Mathlib.Data.List.Induction

/-!
# Frames of a source

The reader keeps for itself whether it is inside of a frame and whether the
assembler took its begin. It cannot see into the assembler: it takes the begin
for refused if anything was recorded. That is right in all cases but one. The
begin of a frame commits the instruction in front of it, and if the line of that
instruction cannot be noted, this is recorded and the frame begins all the same.
Such a frame is **lost**: the reader does not end it, and the method is blamed
for it. As long as no frame is lost, reader and assembler agree after every line.
-/

namespace BytecodeAssembler.Source

open Assembler (start)

/-- **The reading of some lines** into a new assembler. -/
def reading (settings : Settings) (lines : List (List Char)) : Reading :=
  lines.foldl Reading.readLine (Reading.start (start settings))

theorem reading_concat (settings : Settings) (lines : List (List Char)) (line : List Char) :
    reading settings (lines ++ [line]) = (reading settings lines).readLine line := by
  simp [reading]

/-- What the last line did. -/
theorem lineEffect_reading (settings : Settings) (lines : List (List Char)) (line : List Char) :
    (reading settings lines).LineEffect (reading settings (lines ++ [line])) := by
  rw [reading_concat]
  exact Reading.LineEffect.readLine _ line

/-! ## Lost frames -/

/-- **A line loses a frame**: it begins one that the reader takes for refused,
because the line of the instruction in front of it is too large to be noted. -/
structure Reading.LosesFrame (r r' : Reading) : Prop where
  auto : r.assembler.settings.autoLines = true
  before : r.assembler.frameOpen = false
  after : r'.assembler.frameOpen = true
  refused : r'.frame = some false
  recorded : ∃ line, ∃ number : Nat, 65535 < number
    ∧ r'.assembler.diagnostics.back? = some ⟨line, .outOfRange "line number" number⟩

variable {settings : Settings} {lines : List (List Char)} {line : List Char}

/-- **The lines end inside of a frame that was lost.** -/
inductive LostFrame (settings : Settings) : List (List Char) → Prop where
  /-- The last line loses it. -/
  | begins {lines : List (List Char)} {line : List Char}
      (h : (reading settings lines).LosesFrame (reading settings (lines ++ [line]))) :
      LostFrame settings (lines ++ [line])
  /-- It was lost before, and is still open. -/
  | stays {lines : List (List Char)} {line : List Char} (h : LostFrame settings lines)
      (hopen : (reading settings (lines ++ [line])).assembler.frameOpen = true) :
      LostFrame settings (lines ++ [line])

/-- A frame that was lost is open. -/
theorem LostFrame.frameOpen (h : LostFrame settings lines) :
    (reading settings lines).assembler.frameOpen = true := by
  cases h with
  | begins h => exact h.after
  | stays _ hopen => exact hopen

/-- What was lost by the end of one more line was lost by that line, or before. -/
theorem LostFrame.concat (h : LostFrame settings (lines ++ [line])) :
    (reading settings lines).LosesFrame (reading settings (lines ++ [line]))
      ∨ LostFrame settings lines := by
  generalize heq : lines ++ [line] = all at h
  cases h with
  | begins h =>
    obtain ⟨rfl, hline⟩ := List.append_inj' heq rfl
    cases hline
    exact .inl h
  | stays h hopen =>
    obtain ⟨rfl, hline⟩ := List.append_inj' heq rfl
    exact .inr h

/-! ## Frames that were taken -/

/-- **A frame that a source began**, with the line `first`, and that was taken.
Until then the lines are `head`, and the lines `rest` have filled it since. -/
structure BegunFrame (settings : Settings) (head : List (List Char)) (first : List Char)
    (rest : List (List Char)) (ds inside : List Directive) : Prop where
  /-- In front of the line the reader is outside of a frame. -/
  out : (reading settings head).frame = none
  /-- From the line on it is inside of one that was taken. -/
  taken : ∀ more, more <+: rest → (reading settings (head ++ first :: more)).frame = some true
  /-- What the line gives before the begin leaves frames alone. -/
  leads : ∀ d ∈ ds, d.LeavesFrame
  /-- The line begins a frame. -/
  begins : (reading settings (head ++ [first])).assembler
    = ((reading settings head).assembler.runAll ds).run .beginFrame
  /-- Nothing is recorded for it. -/
  clean : (reading settings (head ++ [first])).assembler.diagnostics
    = ((reading settings head).assembler.runAll ds).diagnostics
  /-- The lines behind give these directives. -/
  run : (reading settings (head ++ first :: rest)).assembler
    = (reading settings (head ++ [first])).assembler.runAll inside
  /-- They leave frames alone. -/
  leaves : ∀ d ∈ inside, d.LeavesFrame

section BegunFrame

variable {head rest : List (List Char)} {first : List Char} {ds inside : List Directive}

/-- Such a frame is open, and none was when it began. -/
theorem BegunFrame.frameOpen (h : BegunFrame settings head first rest ds inside) :
    ((reading settings head).assembler.runAll ds).frameOpen = false
      ∧ (reading settings (head ++ first :: rest)).assembler.frameOpen = true := by
  have hclean := h.clean
  rw [h.begins] at hclean
  obtain ⟨hmethod, hclosed⟩ := Assembler.frameOpen_of_run_beginFrame _ hclean
  refine ⟨hclosed, ?_⟩
  rw [h.run, (Assembler.leavesFrame_runAll _ h.leaves).frame, h.begins,
    (Assembler.frame_run_beginFrame _).1, hmethod]

/-- One more line that leaves it alone. -/
theorem BegunFrame.concat (h : BegunFrame settings head first rest ds inside)
    {more : List Directive} (hmore : ∀ d ∈ more, d.LeavesFrame)
    (hrun : (reading settings (head ++ first :: (rest ++ [line]))).assembler
      = (reading settings (head ++ first :: rest)).assembler.runAll more)
    (hframe : (reading settings (head ++ first :: (rest ++ [line]))).frame = some true) :
    BegunFrame settings head first (rest ++ [line]) ds (inside ++ more) where
  out := h.out
  taken lines hlines := by
    rcases List.prefix_concat_iff.1 hlines with rfl | hlines
    · exact hframe
    · exact h.taken lines hlines
  leads := h.leads
  begins := h.begins
  clean := h.clean
  run := by rw [hrun, h.run, Assembler.runAll_append]
  leaves d hd := (List.mem_append.1 hd).elim (h.leaves d) (hmore d)

end BegunFrame

/-! ## Line by line -/

/-- **What holds after every line.** -/
structure Agrees (settings : Settings) (lines : List (List Char)) : Prop where
  /-- A frame whose begin was taken is open. -/
  opened : (reading settings lines).frame = some true →
    (reading settings lines).assembler.frameOpen = true
  /-- A frame that is open is known to the reader, or was lost. -/
  known : (reading settings lines).assembler.frameOpen = true →
    (reading settings lines).frame = some true ∨ LostFrame settings lines
  /-- A frame that was lost is not known to the reader. -/
  lost : LostFrame settings lines → (reading settings lines).frame ≠ some true
  /-- A frame whose begin was taken began with one of the lines. -/
  begun : (reading settings lines).frame = some true →
    ∃ head first rest ds inside, lines = head ++ first :: rest
      ∧ BegunFrame settings head first rest ds inside

theorem agrees_nil (settings : Settings) : Agrees settings [] where
  opened := nofun
  known := nofun
  lost _ := nofun
  begun := nofun

/-- **A line that opens no frame, between states in which none is taken.** A
frame that is open was lost before. -/
theorem Agrees.untaken (h : Agrees settings lines)
    (hbefore : (reading settings lines).frame ≠ some true)
    (hafter : (reading settings (lines ++ [line])).frame ≠ some true)
    (hopen : (reading settings (lines ++ [line])).assembler.frameOpen = true →
      (reading settings lines).assembler.frameOpen = true) :
    Agrees settings (lines ++ [line]) where
  opened htaken := absurd htaken hafter
  known hopen' := .inr (.stays ((h.known (hopen hopen')).resolve_left hbefore) hopen')
  lost _ := hafter
  begun htaken := absurd htaken hafter

/-- **A line that leaves frames alone.** -/
theorem Agrees.leaves (h : Agrees settings lines) {ds : List Directive}
    (hds : ∀ d ∈ ds, d.LeavesFrame)
    (hrun : (reading settings (lines ++ [line])).assembler
      = (reading settings lines).assembler.runAll ds)
    (hframe : (reading settings (lines ++ [line])).frame = (reading settings lines).frame) :
    Agrees settings (lines ++ [line]) := by
  have hopen : (reading settings (lines ++ [line])).assembler.frameOpen
      = (reading settings lines).assembler.frameOpen := by
    rw [hrun, (Assembler.leavesFrame_runAll _ hds).frame]
  refine ⟨fun htaken => ?_, fun hframeOpen => ?_, fun hlost => ?_, fun htaken => ?_⟩
  · rw [hframe] at htaken
    rw [hopen, h.opened htaken]
  · rw [hframe]
    exact (h.known (hopen ▸ hframeOpen)).imp id fun hlost => .stays hlost hframeOpen
  · rcases hlost.concat with hloses | hlost
    · rw [hloses.refused]
      nofun
    · rw [hframe]
      exact h.lost hlost
  · obtain ⟨head, first, rest, before, inside, rfl, hbegun⟩ := h.begun (hframe ▸ htaken)
    rw [List.append_assoc, List.cons_append] at hrun htaken
    exact ⟨head, first, rest ++ [line], before, inside ++ ds, List.append_assoc _ _ _,
      hbegun.concat hds hrun htaken⟩

/-- **A line after which no frame is open or taken.** -/
theorem agrees_of_out (hframe : (reading settings lines).frame = none)
    (hopen : (reading settings lines).assembler.frameOpen = false) : Agrees settings lines where
  opened htaken := by simp [hframe] at htaken
  known hframeOpen := by simp [hopen] at hframeOpen
  lost _ := by simp [hframe]
  begun htaken := by simp [hframe] at htaken

/-- **A line that begins a frame.** -/
theorem Agrees.beginFrame (h : Agrees settings lines) {ds : List Directive}
    (hds : ∀ d ∈ ds, d.LeavesFrame) (hout : (reading settings lines).frame = none)
    (hrun : (reading settings (lines ++ [line])).assembler
      = ((reading settings lines).assembler.runAll ds).run .beginFrame)
    (hframe : (reading settings (lines ++ [line])).frame = some
      ((reading settings (lines ++ [line])).assembler.diagnostics.size
        == ((reading settings lines).assembler.runAll ds).diagnostics.size)) :
    Agrees settings (lines ++ [line]) := by
  have hleaves := Assembler.leavesFrame_runAll (reading settings lines).assembler hds
  have hauto := (reading settings lines).assembler.settings_runAll ds
  have hbegins := hrun
  generalize ha₀ : (reading settings lines).assembler.runAll ds = a₀ at hrun hframe hleaves hauto
  have hopen : (reading settings (lines ++ [line])).assembler.frameOpen = a₀.method.isSome := by
    rw [hrun, a₀.frame_run_beginFrame.1]
  by_cases hsame : (a₀.run .beginFrame).diagnostics = a₀.diagnostics
  · -- nothing was recorded, so the frame began where none was open
    obtain ⟨hmethod, hclosed⟩ := a₀.frameOpen_of_run_beginFrame hsame
    have htaken : (reading settings (lines ++ [line])).frame = some true := by
      rw [hframe, hrun, hsame, beq_self_eq_true]
    refine ⟨fun _ => hopen.trans hmethod, fun _ => .inl htaken, fun hlost => ?_, fun _ => ?_⟩
    · rcases hlost.concat with hloses | hlost
      · rw [hloses.refused]
        nofun
      · have hcontra := hlost.frameOpen
        rw [← hleaves.frame, hclosed] at hcontra
        cases hcontra
    · refine ⟨lines, line, [], ds, [], rfl, hout, fun more hmore => ?_, hds, hbegins, ?_, rfl,
        List.forall_mem_nil _⟩
      · rw [List.prefix_nil.1 hmore]
        exact htaken
      · rw [hrun, ha₀, hsame]
  · have hrefused : (reading settings (lines ++ [line])).frame = some false := by
      rw [hframe, hrun, Option.some.injEq, beq_eq_false_iff_ne]
      intro hsize
      have hkept := (a₀.keeps_run .beginFrame).recorded
      exact hsame (Array.toList_inj.1 (hkept.eq_of_length hsize.symm).symm)
    have hafter : (reading settings (lines ++ [line])).frame ≠ some true := by
      rw [hrefused]
      nofun
    by_cases hbefore : (reading settings lines).assembler.frameOpen = true
    · exact h.untaken (by rw [hout]; nofun) hafter fun _ => hbefore
    · -- only the line of the instruction in front can be to blame
      have hclosed : a₀.frameOpen = false := by
        rw [hleaves.frame, Bool.eq_false_iff]
        exact hbefore
      refine ⟨fun htaken => absurd htaken hafter, fun hopen' => .inr (.begins ?_),
        fun _ => hafter, fun htaken => absurd htaken hafter⟩
      obtain ⟨hlines, number, hlarge, hrecorded⟩ :=
        a₀.recorded_of_run_beginFrame hsame (hopen.symm.trans hopen') hclosed
      refine ⟨?_, Bool.eq_false_iff.2 hbefore, hopen', hrefused, a₀.line, number, hlarge, ?_⟩
      · rw [← hauto, hlines]
      · rw [hrun, hrecorded, Array.back?_push]

/-- **One more line.** -/
theorem Agrees.step (h : Agrees settings lines) (line : List Char) :
    Agrees settings (lines ++ [line]) := by
  cases lineEffect_reading settings lines line with
  | leaves ds hds hrun hframe => exact h.leaves hds hrun hframe
  | endMethod ds hds hout hrun hframe =>
    refine agrees_of_out hframe ?_
    rw [hrun]
    exact (Assembler.frame_run_endMethod _).1
  | beginFrame ds hds hout hrun hframe => exact h.beginFrame hds hout hrun hframe
  | endFrame ds hds accepted hin hrun hframe =>
    cases accepted with
    | true =>
      refine agrees_of_out hframe ?_
      rw [hrun]
      exact (Assembler.frame_run_endFrame _).1
    | false =>
      have hleaves := Assembler.leavesFrame_runAll (reading settings lines).assembler hds
      refine h.untaken (by rw [hin]; nofun) (by rw [hframe]; nofun) fun hopen => ?_
      rw [hrun] at hopen
      exact hleaves.frame.symm.trans hopen

/-- **Reader and assembler agree after every line**, by induction on the lines. -/
theorem agrees (settings : Settings) (lines : List (List Char)) : Agrees settings lines := by
  induction lines using List.reverseRecOn with
  | nil => exact agrees_nil settings
  | append_singleton lines line ih => exact ih.step line

/-! ## What is said of frames -/

/-- **A method is blamed for its frame only if the frame was lost.** -/
theorem exists_lostFrame (h : (reading settings lines).assembler.BlamesFrame) :
    ∃ before, before <+: lines ∧ LostFrame settings before := by
  induction lines using List.reverseRecOn with
  | nil =>
    obtain ⟨d, hd, _⟩ := h
    exact absurd hd (Array.not_mem_empty d)
  | append_singleton lines line ih =>
    have hmore : lines <+: lines ++ [line] := List.prefix_append lines [line]
    have hbefore (hblame : (reading settings lines).assembler.BlamesFrame) :
        ∃ before, before <+: lines ++ [line] ∧ LostFrame settings before := by
      obtain ⟨before, hlines, hlost⟩ := ih hblame
      exact ⟨before, hlines.trans hmore, hlost⟩
    cases lineEffect_reading settings lines line with
    | leaves ds hds hrun hframe =>
      rw [hrun] at h
      exact hbefore ((Assembler.leavesFrame_runAll _ hds).blame h)
    | endMethod ds hds hout hrun hframe =>
      have hleaves := Assembler.leavesFrame_runAll (reading settings lines).assembler hds
      rw [hrun] at h
      rcases (Assembler.frame_run_endMethod _).2 h with hblame | hopen
      · exact hbefore (hleaves.blame hblame)
      · -- the reader is outside of a frame, so the one that is open was lost
        rcases (agrees settings lines).known (hleaves.frame.symm.trans hopen) with hin | hlost
        · rw [hout] at hin
          cases hin
        · exact ⟨lines, hmore, hlost⟩
    | beginFrame ds hds hout hrun hframe =>
      rw [hrun] at h
      have hblame := (Assembler.frame_run_beginFrame _).2 h
      exact hbefore ((Assembler.leavesFrame_runAll _ hds).blame hblame)
    | endFrame ds hds accepted hin hrun hframe =>
      have hleaves := Assembler.leavesFrame_runAll (reading settings lines).assembler hds
      rw [hrun] at h
      cases accepted with
      | false => exact hbefore (hleaves.blame h)
      | true => exact hbefore (hleaves.blame ((Assembler.frame_run_endFrame _).2 h))

/-- **The end of a frame whose begin was taken** ends that frame. -/
theorem exists_begunFrame (hin : (reading settings lines).frame = some true)
    (hout : (reading settings (lines ++ [line])).frame = none) :
    ∃ head first rest ds inside last, lines = head ++ first :: rest
      ∧ BegunFrame settings head first rest ds inside ∧ (∀ d ∈ last, d.LeavesFrame)
      ∧ (reading settings (lines ++ [line])).assembler
        = ((reading settings lines).assembler.runAll last).run .endFrame := by
  obtain ⟨head, first, rest, ds, inside, hlines, hbegun⟩ := (agrees settings lines).begun hin
  cases lineEffect_reading settings lines line with
  | leaves ds hds hrun hframe =>
    rw [hframe, hin] at hout
    cases hout
  | endMethod ds hds hnone hrun hframe =>
    rw [hnone] at hin
    cases hin
  | beginFrame ds hds hnone hrun hframe =>
    rw [hnone] at hin
    cases hin
  | endFrame last hlast accepted hin' hrun hframe =>
    rw [hin] at hin'
    cases hin'
    exact ⟨head, first, rest, ds, inside, last, hlines, hbegun, hlast, hrun⟩

/-! ## A source with a frame -/

/-- The settings of a run whose lines are noted automatically. -/
def notingLines : Settings := { Settings.initial with autoLines := true }

/-- The begin of a class, up to the begin of a frame behind an instruction. -/
def frameHead : List (List Char) :=
  [".class T".toList, ".super java/lang/Object".toList, ".method static m()V".toList,
    "return".toList, ".stack".toList]

/-- The lines that end the frame and its method. -/
def frameTail : List (List Char) := [".end stack".toList, ".end method".toList]

/-- The class of these lines, behind some empty ones. -/
def farText (count : Nat) : String :=
  String.ofList (List.replicate count '\n' ++ (".class T\n.super java/lang/Object\n" ++
    ".method static m()V\nreturn\n.stack\n.end stack\n.end method\n").toList)

/-- The lines that are done do not matter for the rest. -/
theorem cutLines_eq_append (rest rev : List Char) (done : List (List Char)) :
    Text.cutLines rest rev done = done.reverse ++ Text.cutLines rest rev [] := by
  induction rest generalizing rev done with
  | nil => cases rev <;> simp [Text.cutLines]
  | cons c rest ih =>
    by_cases hc : c = '\n'
    · rw [hc, Text.cutLines, Text.cutLines, ih, ih [] [Text.closedLine rev]]
      simp
    · rw [Text.cutLines, Text.cutLines, ih]
      · exact hc
      · exact hc

theorem lines_replicate (count : Nat) (rest : List Char) :
    Text.lines (List.replicate count '\n' ++ rest)
      = List.replicate count [] ++ Text.lines rest := by
  induction count with
  | zero => rfl
  | succ count ih =>
    show Text.cutLines (List.replicate count '\n' ++ rest) [] [[]] = _
    rw [cutLines_eq_append]
    exact congrArg ([] :: ·) ih

/-- Empty lines are only counted. -/
theorem reading_replicate (settings : Settings) (count : Nat) :
    reading settings (List.replicate (count + 1) [])
      = ⟨{ start settings with line := some (count + 1) }, count + 1, none, none⟩ := by
  induction count with
  | zero => rfl
  | succ count ih =>
    rw [List.replicate_succ', reading_concat, ih]
    rfl

theorem lines_farText (count : Nat) :
    Text.lines (farText count).toList = List.replicate count [] ++ frameHead ++ frameTail := by
  rw [farText, String.toList_ofList, lines_replicate, List.append_assoc]
  rfl

/-- The assembler inside of the method, on the given line. -/
def insideMethod (line : Nat) : Assembler :=
  { start notingLines with
    classSoFar := { Class.empty with
      version := .initial
      thisClass := some "T"
      superClass := some "java/lang/Object" }
    line := some line
    form := some .legacy
    method := some (.begin (.declare ⟨8⟩ "m" "()V")) }

theorem reading_farText (count : Nat) (rest : List (List Char)) :
    reading notingLines (List.replicate (count + 1) [] ++ frameHead ++ rest)
      = ((frameHead.drop 3) ++ rest).foldl Reading.readLine
        ⟨insideMethod (count + 4), count + 4, none, none⟩ := by
  have hmethod : (frameHead.take 3).foldl Reading.readLine
      ⟨{ start notingLines with line := some (count + 1) }, count + 1, none, none⟩
      = ⟨insideMethod (count + 4), count + 4, none, none⟩ := by
    show Reading.mk (Assembler.beginMethod _ ⟨8⟩ "m" "()V") (count + 4) none none = _
    unfold Assembler.beginMethod
    rw [MethodDescriptor.read_unit]
    rfl
  have hempty := reading_replicate notingLines count
  unfold reading at hempty ⊢
  rw [← frameHead.take_append_drop 3, List.foldl_append, List.foldl_append, List.foldl_append,
    hempty, hmethod, List.foldl_append]
  rfl

/-- What is recorded for the class far down in its source. -/
theorem diagnostics_farText : (read (start notingLines) (farText 65536)).diagnostics
    = #[⟨some 65541, .outOfRange "line number" 65540⟩, ⟨some 65543, .frameOpenAtMethodEnd⟩] := by
  have hreading := reading_farText 65535 frameTail
  rw [← lines_farText] at hreading
  show (reading notingLines (Text.lines (farText 65536).toList)).finish.diagnostics = _
  rw [hreading]
  rfl

theorem blamesFrame_farText : (read (start notingLines) (farText 65536)).BlamesFrame := by
  refine ⟨⟨some 65543, .frameOpenAtMethodEnd⟩, ?_, rfl⟩
  rw [diagnostics_farText]
  simp

/-! ## Agreement -/

/-- **Reader and assembler agree on whether a frame is open.** After every line
the reader is inside of a frame that was taken exactly if the assembler has one
open, unless that frame was lost. The end of a frame that was taken ends the
frame that began with an earlier line, where none was open, and that has been
open since. No method is blamed for its frame unless a frame was lost. -/
theorem frame_agreement (settings : Settings) (text : String) :
    (∀ lines, lines <+: Text.lines text.toList →
      ((reading settings lines).frame = some true
        ↔ (reading settings lines).assembler.frameOpen = true ∧ ¬LostFrame settings lines))
    ∧ (∀ lines line, lines ++ [line] <+: Text.lines text.toList →
      (reading settings lines).frame = some true →
      (reading settings (lines ++ [line])).frame = none →
      ∃ head first rest ds inside last, lines = head ++ first :: rest
        ∧ BegunFrame settings head first rest ds inside
        ∧ ((reading settings head).assembler.runAll ds).frameOpen = false
        ∧ (∀ d ∈ last, d.LeavesFrame)
        ∧ ((reading settings lines).assembler.runAll last).frameOpen = true
        ∧ (reading settings (lines ++ [line])).assembler
          = ((reading settings lines).assembler.runAll last).run .endFrame
        ∧ (reading settings (lines ++ [line])).assembler.frameOpen = false)
    ∧ ((read (start settings) text).BlamesFrame →
      ∃ lines, lines <+: Text.lines text.toList ∧ LostFrame settings lines) := by
  refine ⟨fun lines _ => ?_, fun lines line _ hin hout => ?_, fun h => ?_⟩
  · have hagrees := agrees settings lines
    constructor
    · exact fun hin => ⟨hagrees.opened hin, fun hlost => hagrees.lost hlost hin⟩
    · exact fun ⟨hopen, hlost⟩ => (hagrees.known hopen).resolve_right hlost
  · obtain ⟨head, first, rest, ds, inside, last, hlines, hbegun, hlast, hrun⟩ :=
      exists_begunFrame hin hout
    have hopen := (agrees settings lines).opened hin
    rw [← (Assembler.leavesFrame_runAll _ hlast).frame] at hopen
    refine ⟨head, first, rest, ds, inside, last, hlines, hbegun, hbegun.frameOpen.1, hlast, hopen,
      hrun, ?_⟩
    rw [hrun, (Assembler.frame_run_endFrame _).1]
  · obtain ⟨ds, hds, hrun⟩ :=
      (reading settings (Text.lines text.toList)).exists_runAll_finish
    refine exists_lostFrame ((Assembler.leavesFrame_runAll _ hds).blame ?_)
    rw [← hrun]
    exact h

/-- Near the begin of the source the frame is taken and ended; far down it is
lost. -/
theorem frame_agreement_farText :
    (List.replicate 1 [] ++ frameHead) ++ [".end stack".toList] <+: Text.lines (farText 1).toList
      ∧ (reading notingLines (List.replicate 1 [] ++ frameHead)).frame = some true
      ∧ (reading notingLines (List.replicate 1 [] ++ frameHead ++ [".end stack".toList])).frame
        = none
      ∧ (∃ head first rest ds inside last,
        List.replicate 1 [] ++ frameHead = head ++ first :: rest
        ∧ BegunFrame notingLines head first rest ds inside
        ∧ ((reading notingLines head).assembler.runAll ds).frameOpen = false
        ∧ (∀ d ∈ last, d.LeavesFrame)
        ∧ ((reading notingLines
          (List.replicate 1 [] ++ frameHead)).assembler.runAll last).frameOpen = true
        ∧ (reading notingLines
          (List.replicate 1 [] ++ frameHead ++ [".end stack".toList])).assembler
          = ((reading notingLines
            (List.replicate 1 [] ++ frameHead)).assembler.runAll last).run .endFrame
        ∧ (reading notingLines
          (List.replicate 1 [] ++ frameHead ++ [".end stack".toList])).assembler.frameOpen = false)
      ∧ (read (start notingLines) (farText 65536)).BlamesFrame
      ∧ ∃ lines, lines <+: Text.lines (farText 65536).toList ∧ LostFrame notingLines lines := by
  have hlines : (List.replicate 1 [] ++ frameHead) ++ [".end stack".toList]
      <+: Text.lines (farText 1).toList := by
    rw [lines_farText]
    exact ⟨[".end method".toList], rfl⟩
  have hin : (reading notingLines (List.replicate 1 [] ++ frameHead)).frame = some true := by
    rw [← List.append_nil (List.replicate 1 [] ++ frameHead), reading_farText 0]
    rfl
  have hout : (reading notingLines
      (List.replicate 1 [] ++ frameHead ++ [".end stack".toList])).frame = none := by
    rw [reading_farText 0]
    rfl
  have hended := (frame_agreement notingLines (farText 1)).2.1 _ _ hlines hin hout
  exact ⟨hlines, hin, hout, hended, blamesFrame_farText,
    (frame_agreement notingLines (farText 65536)).2.2 blamesFrame_farText⟩

/-- **A frame can be lost**, and then a method is blamed whose frame has its
end: the instruction in front of the frame is on line 65540. -/
theorem frame_lost :
    List.replicate 65536 [] ++ frameHead <+: Text.lines (farText 65536).toList
      ∧ (reading notingLines (List.replicate 65536 [] ++ frameHead)).frame = some false
      ∧ (reading notingLines (List.replicate 65536 [] ++ frameHead)).assembler.frameOpen = true
      ∧ (read (start notingLines) (farText 65536)).BlamesFrame := by
  have hhead : reading notingLines (List.replicate 65536 [] ++ frameHead)
      = (frameHead.drop 3).foldl Reading.readLine ⟨insideMethod 65539, 65539, none, none⟩ := by
    have hreading := reading_farText 65535 []
    rw [List.append_nil, List.append_nil] at hreading
    exact hreading
  refine ⟨?_, ?_, ?_, blamesFrame_farText⟩
  · rw [lines_farText]
    exact List.prefix_append _ _
  · rw [hhead]
    rfl
  · rw [hhead]
    rfl

end BytecodeAssembler.Source
