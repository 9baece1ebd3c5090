import DotTarget.Proofs.Completion.TriggerText
import DotTarget.Proofs.Lexical.ScanContext
import DotTarget.Proofs.Tree.VisitingOrder

set_option autoImplicit false

/-! # Typing does not move the target

While the word behind a dot is typed, and while the cursor moves inside it, the dot and all that
precedes it stay as they are. Wherever in the word the cursor stands, the trigger is that dot and
the whole word (`triggerAt?_of_inTypedWord`). The text without the trigger does not hold the word,
and scanning sees nothing right of the dot. So the resolver gives the same answer and is left in the
same state (`resolve_typed_word`). -/

namespace DotTarget

open CharClass (isWordChar)

/-- A cursor in the word typed behind the dot that follows `front`: on the row of the dot, right of
it, and not behind the end of the word. -/
structure InTypedWord (front word : Text) (cursor : Position) : Prop where
  row_eq : cursor.row = (Position.origin.advance front).row
  after_dot : (Position.origin.advance front).column + 1 ≤ cursor.column
  within_word : cursor.column ≤ (Position.origin.advance front).column + 1 + Text.width word

/-! ## The word at the cursor -/

/-- A cursor right of a dot splits its row at the dot and inside the word. -/
theorem exists_splitsAtTrigger_typed {line word after : Text} {column : Nat}
    (hword : ∀ c ∈ word, isWordChar c = true)
    (hafter : ∀ c ∈ after.head?, isWordChar c = false)
    (hstart : Text.width line + 1 ≤ column)
    (hstop : column ≤ Text.width line + 1 + Text.width word) :
    ∃ earlier later, word = earlier ++ later ∧
      SplitsAtTrigger (line ++ '.' :: (word ++ after)) column line earlier later after := by
  obtain ⟨n, rfl⟩ := Nat.exists_eq_add_of_le hstart
  obtain ⟨later, hlater⟩ := Text.cut_prefix word n
  have hdot : '.'.utf8Size = 1 := by decide
  have hwidth : Text.width (line ++ ['.']) = Text.width line + 1 := by simp [hdot]
  have hline : line ++ '.' :: (word ++ after) = line ++ ['.'] ++ (word ++ after) := by simp
  have hcut : Text.cut (line ++ '.' :: (word ++ after)) (Text.width line + 1 + n) =
      line ++ '.' :: Text.cut word n := by
    rw [hline, ← hwidth, Text.cut_append_add, Text.cut_of_prefix (List.prefix_append word after)]
    · simp
    · omega
  have hearlier : ∀ c ∈ Text.cut word n, isWordChar c = true :=
    fun c hc => hword c ((Text.cut_prefix word n).subset hc)
  have hlaterWord : ∀ c ∈ later, isWordChar c = true :=
    fun c hc => hword c (hlater ▸ List.mem_append_right _ hc)
  refine ⟨Text.cut word n, later, hlater.symm, ?_, hcut, hearlier, hlaterWord, hafter⟩
  rw [← List.append_assoc, hlater]

namespace Resolver

/-- **The trigger of a cursor in a typed word is the dot and the whole word.** -/
theorem triggerAt?_of_inTypedWord {front word after : Text} {cursor : Position}
    (hword : ∀ c ∈ word, isWordChar c = true)
    (hafter : ∀ c ∈ after.head?, isWordChar c = false) (hcursor : InTypedWord front word cursor) :
    ∃ trigger, triggerAt? (front ++ '.' :: (word ++ after)) cursor = some trigger ∧
      trigger.dot = Position.origin.advance front ∧
      trigger.word.stop = Position.origin.advance (front ++ '.' :: word) := by
  obtain ⟨above, line, rfl, habove, hline⟩ := Text.exists_eq_closed_append front
  obtain ⟨rest, below, rfl, hrest, hbelow⟩ := Text.exists_eq_row_append after
  have hwordFree : '\n' ∉ word := by
    intro hmem
    exact absurd (hword _ hmem) (by decide)
  have hrestHead : ∀ c ∈ rest.head?, isWordChar c = false := by
    cases rest with
    | nil => simp
    | cons c rest => simpa using hafter
  have hsplit : SplitsAtRow (Text.closed above ++ line ++ '.' :: (word ++ (rest ++ below))) above
      (line ++ '.' :: (word ++ rest)) below :=
    ⟨by simp, habove, by simp [hline, hwordFree, hrest], hbelow⟩
  obtain ⟨hrow, hstart, hstop⟩ := hcursor
  rw [Position.advance_closed_append habove hline] at hrow hstart hstop
  have hrow : cursor.row = above.length := hrow
  obtain ⟨earlier, later, hparts, htrigger⟩ :=
    exists_splitsAtTrigger_typed hword hrestHead hstart hstop
  have hfind : triggerAt? (Text.closed above ++ line ++ '.' :: (word ++ (rest ++ below))) cursor =
      Trigger.find? (line ++ '.' :: (word ++ rest)) cursor := by
    unfold triggerAt?
    rw [hrow, hsplit.getElem?_lines]
    rfl
  refine ⟨_, hfind.trans htrigger.find?_eq, ?_, ?_⟩
  · rw [Position.advance_closed_append habove hline, hrow]
  · have hfree : '\n' ∉ line ++ '.' :: word := by simp [hline, hwordFree]
    rw [List.append_assoc, Position.advance_closed_append habove hfree, hrow, hparts]
    simp [Nat.add_assoc]

/-! ## What the answer depends on -/

/-- Scanning back from the end of a front part sees nothing of what follows it. -/
theorem looksAlike_of_front (front back back' : Text) :
    LooksAlike .same (Text.lines (front ++ back)) (Text.lines (front ++ back'))
      (Position.origin.advance front) := by
  obtain ⟨above, line, rfl, habove, hline⟩ := Text.exists_eq_closed_append front
  have hsplit : ∀ back, ∃ rest below,
      SplitsAtRow (Text.closed above ++ line ++ back) above (line ++ rest) below := by
    intro back
    obtain ⟨rest, below, rfl, hrest, hbelow⟩ := Text.exists_eq_row_append back
    exact ⟨rest, below, by simp, habove, by simp [hline, hrest], hbelow⟩
  obtain ⟨rest, below, hback⟩ := hsplit back
  obtain ⟨rest', below', hback'⟩ := hsplit back'
  rw [Position.advance_closed_append habove hline]
  refine looksAlike_of_codeOf_eq hback.getElem?_lines hback'.getElem?_lines ?_ ?_
  · rw [Text.cut_append_width, Text.cut_append_width]
  · intro n hn
    rw [hback.lines_eq, hback'.lines_eq, List.getElem?_append_left hn,
      List.getElem?_append_left hn]

variable {t t' : Text} {trigger trigger' : Trigger}

theorem resolveTree_congr (r : Resolver) (id : String) (hdot : trigger.dot = trigger'.dot)
    (hstripped : withoutTrigger t trigger = withoutTrigger t' trigger') :
    r.resolveTree id t trigger = r.resolveTree id t' trigger' := by
  unfold resolveTree
  rw [hstripped, hdot]

theorem resolveLexical_congr (config : Config) {front : Text} (back back' : Text)
    (hdot : trigger.dot = Position.origin.advance front) (hsame : trigger.dot = trigger'.dot) :
    resolveLexical config (Text.lines (front ++ back)) trigger =
      resolveLexical config (Text.lines (front ++ back')) trigger' := by
  have halike := looksAlike_of_front front back back'
  rw [← hdot] at halike
  obtain ⟨outcome, hscan, hscan'⟩ :=
    halike.scan_eq (p := ⟨trigger.dot.row, trigger.dot.column + 1⟩) config.maxIterations
  have hscan' : scan (Text.lines (front ++ back')) ⟨trigger.dot.row, trigger.dot.column + 1⟩
      config.maxIterations = .ok outcome := hscan'
  unfold resolveLexical
  rw [← hsame, hscan, hscan']

/-- **Typing does not move the target.** Whatever word stands behind the dot, and wherever in it the
cursor stands, the resolver answers the same and is left in the same state. -/
theorem resolve_typed_word (r : Resolver) (id : String) {front word word' after : Text}
    (hword : ∀ c ∈ word, isWordChar c = true) (hword' : ∀ c ∈ word', isWordChar c = true)
    (hafter : ∀ c ∈ after.head?, isWordChar c = false) {cursor cursor' : Position}
    (hcursor : InTypedWord front word cursor) (hcursor' : InTypedWord front word' cursor') :
    r.resolve id (front ++ '.' :: (word ++ after)) cursor =
      r.resolve id (front ++ '.' :: (word' ++ after)) cursor' := by
  obtain ⟨trigger, htrigger, hdot, hstop⟩ := triggerAt?_of_inTypedWord hword hafter hcursor
  obtain ⟨trigger', htrigger', hdot', hstop'⟩ := triggerAt?_of_inTypedWord hword' hafter hcursor'
  have hsame : trigger.dot = trigger'.dot := hdot.trans hdot'.symm
  have hstripped : withoutTrigger (front ++ '.' :: (word ++ after)) trigger =
      withoutTrigger (front ++ '.' :: (word' ++ after)) trigger' :=
    (withoutTrigger_eq_some hdot hstop).trans (withoutTrigger_eq_some hdot' hstop').symm
  have htree := resolveTree_congr r id hsame hstripped
  have hlexical := resolveLexical_congr r.config ('.' :: (word ++ after)) ('.' :: (word' ++ after))
    hdot hsame
  unfold resolve resolveTrigger
  rw [htrigger, htrigger']
  simp only [htree, hlexical]

/-! ## A word typed in an argument -/

/-- The argument of the call. -/
def argumentName : Node :=
  .onFirstRow "identifier" true none 2 4 []

def argumentList : Node :=
  .onFirstRow "argument_list" true (some "arguments") 1 5
    [.onFirstRow "(" false none 1 2 [], argumentName, .onFirstRow ")" false none 4 5 []]

def argumentCall : Node :=
  .onFirstRow "call" true none 0 5
    [.onFirstRow "identifier" true (some "function") 0 1 [], argumentList]

/-- The syntax tree of `f(ü)`. -/
def argumentTree : SyntaxTree where
  root := .onFirstRow "module" true none 0 5 [argumentCall]
  hasError := false
  length := 5

/-- A resolver whose parser knows that text. -/
def argumentResolver : Resolver where
  cache.engine := some ⟨"python", fun t =>
    if t = "f(ü)".toList then some argumentTree else none⟩

/-- The resolver once it has parsed the text. -/
def argumentResolved : Resolver :=
  { argumentResolver with cache.trees := [("doc", { tree := argumentTree })] }

def argumentTarget : Boundary :=
  ⟨⟨⟨0, 2⟩, ⟨0, 4⟩⟩,
    some ⟨"identifier", some .identifier, ⟨⟨0, 2⟩, ⟨0, 4⟩⟩, some "argument_list"⟩, .tree⟩

theorem locate_argumentTree :
    locate .heuristic argumentTree.root ⟨0, 4⟩ = some ⟨argumentName, some "argument_list"⟩ := by
  rw [locate_eq_findSome?]
  rfl

/-- The answer while nothing is typed behind the dot yet. -/
theorem resolve_argumentResolver :
    argumentResolver.resolve "doc" "f(ü.)".toList ⟨0, 5⟩ =
      (argumentResolved, .ok (some argumentTarget)) := by
  have htrigger : triggerAt? "f(ü.)".toList ⟨0, 5⟩ = some ⟨⟨0, 4⟩, ⟨⟨0, 5⟩, ⟨0, 5⟩⟩⟩ := by decide
  have hstripped : withoutTrigger "f(ü.)".toList ⟨⟨0, 4⟩, ⟨⟨0, 5⟩, ⟨0, 5⟩⟩⟩ =
      some "f(ü)".toList := by decide
  have hboundary : boundaryInTree .heuristic argumentTree ⟨0, 4⟩ = .ok (some argumentTarget) := by
    rw [boundaryInTree, locate_argumentTree]
    rfl
  have htree : argumentResolver.resolveTree "doc" "f(ü.)".toList ⟨⟨0, 4⟩, ⟨⟨0, 5⟩, ⟨0, 5⟩⟩⟩ =
      (argumentResolved, .ok (some argumentTarget)) := by
    simp only [resolveTree, hstripped]
    show (argumentResolved, boundaryInTree .heuristic argumentTree ⟨0, 4⟩) = _
    rw [hboundary]
  have hstrategy : argumentResolver.config.strategy = .auto := rfl
  simp only [resolve, htrigger, resolveTrigger, hstrategy, htree]
  rfl

/-- With a cursor inside the last character of the typed word the answer is the same. -/
theorem resolve_typed_word_umlaut :
    argumentResolver.resolve "doc" "f(ü.wö)".toList ⟨0, 7⟩ =
      (argumentResolved, .ok (some argumentTarget)) := by
  have hafter : ∀ c ∈ ")".toList.head?, isWordChar c = false := by
    intro c hc
    obtain rfl : ')' = c := Option.some.inj hc
    decide
  have hsame := @resolve_typed_word argumentResolver "doc" "f(ü".toList "wö".toList [] ")".toList
    (List.all_eq_true.1 (by decide)) (List.forall_mem_nil _) hafter ⟨0, 7⟩ ⟨0, 5⟩
    ⟨by decide, by decide, by decide⟩ ⟨by decide, by decide, by decide⟩
  exact hsame.trans resolve_argumentResolver

end Resolver

end DotTarget
