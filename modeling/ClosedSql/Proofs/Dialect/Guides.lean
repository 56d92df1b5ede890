import ClosedSql.Proofs.Dialect.Tokens

/-!
# Normalizing up to a condition

Up to its condition, every other token of a change is a keyword, a comma or an equals sign. Such a
guide is never replaced, and it keeps the tokens around it from forming a call or from running
together once they are replaced. So each of them is normalized by itself, whatever the condition is.
-/

namespace ClosedSql

open Text Dialect

namespace Token

/-- A token, with `stamp` in place of the word for the current time. -/
def stamped (token stamp : Token) : Token :=
  if token.isKeyword "current_timestamp" then stamp else token

def guideWords : List (List Char) :=
  ["update".toList, "set".toList, "where".toList]

inductive Guide : Token → Prop
  | keyword {word : String} (known : lower word.toList ∈ guideWords) : Guide (.word word)
  | equals : Guide (.operator .equals)
  | comma : Guide .comma

/-- Some tokens end in `last`, and every other one of them is a guide. -/
inductive Guided (last : Token) : List Token → Prop
  | last (guide : Guide last) : Guided last [last]
  | cons {guide : Token} (isGuide : Guide guide) (token : Token) {rest : List Token}
      (tail : Guided last rest) : Guided last (guide :: token :: rest)

section Guide

variable {token : Token}

theorem Guided.head {last : Token} {tokens : List Token} (h : Guided last tokens) :
    ∃ guide rest, tokens = guide :: rest ∧ Guide guide := by
  cases h with
  | last guide => exact ⟨_, _, rfl, guide⟩
  | cons isGuide => exact ⟨_, _, rfl, isGuide⟩

theorem Guided.getLast? {last : Token} {tokens : List Token} (h : Guided last tokens) :
    tokens.getLast? = some last ∧ Guide last := by
  induction h with
  | last guide => exact ⟨rfl, guide⟩
  | cons _ token tail ih =>
      obtain ⟨guide, rest, rfl, -⟩ := tail.head
      exact ih

/-- A guide is no word for the current time. -/
theorem Guide.stamped (h : Guide token) (stamp : Token) : token.stamped stamp = token := by
  rw [Token.stamped, if_neg]
  cases h with
  | keyword known =>
      have hother : lower "current_timestamp".toList ∉ guideWords := by decide
      rw [isKeyword, sameIgnoringCase_iff]
      intro heq
      rw [heq] at known
      exact hother known
  | equals => exact Bool.false_ne_true
  | comma => exact Bool.false_ne_true

/-- Stamping the tokens between guides leaves the guides. -/
theorem Guided.stamped {last : Token} {tokens : List Token} (h : Guided last tokens)
    (stamp : Token) : Guided last (tokens.map fun token => token.stamped stamp) := by
  induction h with
  | last guide =>
      rw [List.map_singleton, guide.stamped]
      exact .last guide
  | cons isGuide token _ ih =>
      rw [List.map_cons, List.map_cons, isGuide.stamped]
      exact .cons isGuide _ ih

theorem EndsBefore.of_head? {text other : List Char} (h : token.EndsBefore text)
    (hhead : other.head? = text.head?) : token.EndsBefore other := by
  intro c hc
  rw [hhead] at hc
  exact h c hc

/-- A guide is no zero and no one. -/
theorem Guide.not_digit (h : Guide token) : ¬(token = .number "0" ∨ token = .number "1") := by
  rintro (rfl | rfl)
  · cases h
  · cases h

/-- No guide begins a spelling of the current time, whatever follows it. -/
theorem Guide.nowSpelling? (h : Guide token) (hlexeme : Lexeme token) {word : String}
    (hword : token = .word word) (rest : List Char) :
    Dialect.nowSpelling? (word.toList ++ rest) = none := by
  subst hword
  obtain ⟨c, tail, hchars, hc, -⟩ := exists_cons_of_isIdentifier hlexeme.isIdentifier
  cases h with
  | keyword known =>
      have hfirst : ∀ word ∈ guideWords, word.head? ≠ some 'c' ∧ word.head? ≠ some 'd' := by decide
      have hhead : (lower word.toList).head? = some (fold c) := by
        rw [hchars, fold_of_isAsciiWord hc.isAsciiWord]
        rfl
      obtain ⟨hstamp, hcall⟩ := hfirst _ known
      rw [hhead] at hstamp hcall
      rw [Dialect.nowSpelling?, hchars, List.cons_append]
      have hnotStamp : afterWord? "current_timestamp".toList (c :: (tail ++ rest)) = none :=
        afterWord?_cons_of_ne (fun heq => hstamp (congrArg some heq)) _ _
      have hnotCall : afterWord? "datetime".toList (c :: (tail ++ rest)) = none :=
        afterWord?_cons_of_ne (fun heq => hcall (congrArg some heq)) _ _
      rw [hnotStamp, hnotCall]
      rfl

/-- A guide opens neither a call nor a text. -/
theorem Guide.first (h : Guide token) (hlexeme : Lexeme token) :
    ∃ c tail, token.chars = c :: tail ∧ c ≠ '(' ∧ c ≠ '\'' := by
  cases h with
  | @keyword word known =>
      obtain ⟨c, tail, hchars, hc, -⟩ := exists_cons_of_isIdentifier hlexeme.isIdentifier
      exact ⟨c, tail, hchars, hc.ne (by decide), hc.ne (by decide)⟩
  | equals => exact ⟨'=', [], rfl, by decide, by decide⟩
  | comma => exact ⟨',', [], rfl, by decide, by decide⟩

/-- A word does not stand directly behind a guide that is one. -/
theorem Guide.not_runs_together (h : Guide token) (hlexeme : Lexeme token) {word : String}
    (hword : Lexeme (.word word)) {gap rest : List Char}
    (hends : token.EndsBefore (gap ++ ((Token.word word).chars ++ rest))) :
    (token.endsInWord && gap.isEmpty) = false := by
  cases h with
  | keyword known =>
      cases gap with
      | cons c gap => rw [List.isEmpty_cons, Bool.and_false]
      | nil =>
          obtain ⟨c, tail, hchars, hc, -⟩ := exists_cons_of_isIdentifier hword.isIdentifier
          rw [Token.chars, hchars] at hends
          exact absurd (hends c rfl) (by simp [continues, hc.isAsciiWord])
  | equals => exact (show (false && gap.isEmpty) = false from rfl)
  | comma => exact (show (false && gap.isEmpty) = false from rfl)

/-- No guide goes on with a quote. -/
theorem Guide.not_continues_quote (h : Guide token) : token.continues '\'' = false := by
  cases h with
  | keyword known => exact (show isAsciiWord '\'' = false by decide)
  | equals => decide
  | comma => rfl

end Guide

end Token

namespace Layout

variable {layout : Layout} {last : Token} {after : List Char}

/-- A layout with `stamp` in place of each word for the current time. -/
def stamped (stamp : Token) (layout : Layout) : Layout :=
  layout.map fun item => (item.1, item.2.stamped stamp)

theorem stamped_cons_cons (stamp : Token) {guide : Token} (h : Token.Guide guide)
    (gap between : List Char) (token : Token) (rest : Layout) :
    stamped stamp ((gap, guide) :: (between, token) :: rest) =
      (gap, guide) :: (between, token.stamped stamp) :: stamped stamp rest := by
  rw [stamped, List.map_cons, List.map_cons, h.stamped]
  rfl

/-- Stamping a layout stamps its tokens. -/
theorem map_snd_stamped (stamp : Token) (layout : Layout) :
    (layout.stamped stamp).map Prod.snd =
      (layout.map Prod.snd).map fun token => token.stamped stamp := by
  rw [stamped, List.map_map, List.map_map]
  rfl

/-- A layout that begins with a guide begins with a blank or with that guide. -/
theorem text_of_guided (after : List Char) (h : Legible layout)
    (hguided : Token.Guided last (layout.map Prod.snd)) :
    ∃ c tail, layout.text = c :: tail ∧ c ≠ '\'' ∧
      (trimStart (layout.text ++ after)).head? ≠ some '(' := by
  obtain ⟨guide, others, htokens, hguide⟩ := hguided.head
  obtain ⟨⟨gap, token⟩, rest, rfl, rfl, -⟩ := List.map_eq_cons_iff.1 htokens
  cases h with
  | cons blank lexeme _ _ =>
      obtain ⟨c, letters, hchars, hparen, hquote⟩ := hguide.first lexeme
      have htrim : (trimStart (text ((gap, token) :: rest) ++ after)).head? ≠ some '(' := by
        rw [text, List.append_assoc, List.append_assoc, lexeme.trimStart_append blank, hchars]
        exact fun heq => hparen (Option.some.inj heq)
      cases gap with
      | nil =>
          refine ⟨c, letters ++ text rest, ?_, hquote, htrim⟩
          rw [text, hchars]
          rfl
      | cons d gap =>
          refine ⟨d, gap ++ (token.chars ++ text rest), rfl, ?_, htrim⟩
          rintro rfl
          exact absurd (blank '\'' List.mem_cons_self) (by decide)

/-- A token with no call behind it is replaced only if it is the word for the current time. -/
theorem replaceNow_free {token : Token} (stamp : Token) (h : Token.Lexeme token) {rest : List Char}
    {inWord : Bool}
    (hword : ∀ word, token = .word word → inWord = false ∧ beginsInWord rest = false)
    (hcall : (trimStart rest).head? ≠ some '(') :
    ∃ goesOn, replaceNow stamp.chars inWord (token.chars ++ rest) =
      (token.stamped stamp).chars ++ replaceNow stamp.chars goesOn rest := by
  have hlower : lower "current_timestamp".toList = "current_timestamp".toList := by decide
  have hspelling : ∀ word, token = .word word → isIdentifier word.toList = true →
      Dialect.nowSpelling? (word.toList ++ rest) =
        if token.isKeyword "current_timestamp" then some rest else none := by
    rintro word rfl identifier
    obtain ⟨c, tail, hchars, hc, htail⟩ := Token.exists_cons_of_isIdentifier identifier
    have hletters : ∀ d ∈ word.toList, isAsciiWord d = true := by
      rw [hchars, List.forall_mem_cons]
      exact ⟨hc.isAsciiWord, htail⟩
    have hnone : callArguments? rest = none := by
      rw [callArguments?]
      split
      · next heq => exact absurd (congrArg List.head? heq) hcall
      · rfl
    rw [nowSpelling?_word hletters (hword word rfl).2, hnone, ite_self, Token.isKeyword]
    simp only [sameIgnoringCase_iff, hlower]
  rw [Token.stamped]
  split
  · next hstamp =>
      cases h with
      | @word text identifier =>
          have hfound := hspelling text rfl identifier
          rw [if_pos hstamp] at hfound
          rw [(hword text rfl).1]
          exact ⟨false, replaceNow_of_word _ identifier hfound⟩
      | mark isMark =>
          cases token with
          | word => cases isMark
          | _ => cases hstamp
      | _ => cases hstamp
  · next hstamp =>
      refine ⟨_, replaceNow_lexeme _ h fun word heq _ => ?_⟩
      subst heq
      rw [hspelling word rfl h.isIdentifier, if_neg hstamp]

/-- Replacing the current time between guides replaces tokens. -/
theorem replaceNow_guided (stamp : Token) (h : Legible layout)
    (hguided : Token.Guided last (layout.map Prod.snd)) (inWord : Bool) :
    replaceNow stamp.chars inWord (layout.text ++ after) =
      (layout.stamped stamp).text ++ replaceNow stamp.chars last.endsInWord after := by
  generalize htokens : layout.map Prod.snd = tokens at hguided
  induction hguided generalizing layout inWord with
  | last guide =>
      obtain ⟨⟨gap, token⟩, rest, rfl, rfl, hrest⟩ := List.map_eq_cons_iff.1 htokens
      obtain rfl := List.map_eq_nil_iff.1 hrest
      cases h with
      | cons blank lexeme _ _ =>
          have hkept : ∀ word, token = .word word →
              goesOn inWord gap = false → Dialect.nowSpelling? (word.toList ++ after) = none :=
            fun word hword _ => guide.nowSpelling? lexeme hword after
          rw [stamped, List.map_singleton, guide.stamped, text, text, List.append_nil,
            List.append_assoc, replaceNow_inert _ _ fun c hc => inert_of_isAsciiBlank (blank c hc),
            replaceNow_lexeme _ lexeme hkept, List.append_assoc]
  | @cons guide isGuide token rest tail ih =>
      obtain ⟨⟨gap, guide⟩, others, rfl, rfl, hothers⟩ := List.map_eq_cons_iff.1 htokens
      obtain ⟨⟨between, token⟩, others, rfl, rfl, rfl⟩ := List.map_eq_cons_iff.1 hothers
      cases h with
      | cons blank lexeme ends htail =>
      cases htail with
      | cons blankBetween lexemeToken endsToken htail =>
          obtain ⟨c, letters, hfirst, -, hcall⟩ := text_of_guided after htail tail
          have hword : ∀ word, token = .word word →
              goesOn guide.endsInWord between = false ∧
                beginsInWord (text others ++ after) = false := by
            rintro word rfl
            refine ⟨?_, ?_⟩
            · rw [goesOn_blanks blankBetween]
              exact isGuide.not_runs_together lexeme lexemeToken ends
            · have hnot := htail.not_beginsInWord (List.forall_mem_nil _) endsToken
              rw [List.append_nil, hfirst] at hnot
              rw [hfirst]
              exact hnot c rfl
          -- the guides on both sides keep the token from being part of a longer word or of a call
          obtain ⟨goesOn, hfree⟩ := replaceNow_free stamp lexemeToken hword hcall
          have hguide : ∀ word, guide = .word word → Dialect.goesOn inWord gap = false →
              Dialect.nowSpelling? (word.toList ++ (between ++ (token.chars ++
                (text others ++ after)))) = none :=
            fun word hword _ => isGuide.nowSpelling? lexeme hword _
          rw [text, text, List.append_assoc, List.append_assoc, List.append_assoc,
            List.append_assoc, replaceNow_inert _ _ fun c hc => inert_of_isAsciiBlank (blank c hc),
            replaceNow_lexeme _ lexeme hguide,
            replaceNow_inert _ _ fun c hc => inert_of_isAsciiBlank (blankBetween c hc), hfree,
            ih htail goesOn rfl, stamped_cons_cons stamp isGuide, text, text, List.append_assoc,
            List.append_assoc, List.append_assoc, List.append_assoc]

/-- A layout that begins with a guide begins alike when the current time is replaced. -/
theorem head?_stamped (stamp : Token) (h : Legible layout)
    (hguided : Token.Guided last (layout.map Prod.snd)) :
    (layout.stamped stamp).text.head? = layout.text.head? := by
  obtain ⟨guide, others, htokens, hguide⟩ := hguided.head
  obtain ⟨⟨gap, token⟩, rest, rfl, rfl, -⟩ := List.map_eq_cons_iff.1 htokens
  rw [stamped, List.map_cons, hguide.stamped, text, text]
  cases h with
  | cons blank lexeme _ _ =>
      obtain ⟨c, letters, hchars, -⟩ := lexeme.first
      cases gap with
      | nil =>
          rw [hchars]
          rfl
      | cons d gap => rfl

/-- Between guides a layout stays legible when the current time is replaced. -/
theorem legible_stamped (content : String) (h : Legible layout)
    (hguided : Token.Guided last (layout.map Prod.snd)) :
    Legible (layout.stamped (.quotedText content)) := by
  generalize htokens : layout.map Prod.snd = tokens at hguided
  induction hguided generalizing layout with
  | last guide =>
      obtain ⟨⟨gap, token⟩, rest, rfl, rfl, hrest⟩ := List.map_eq_cons_iff.1 htokens
      obtain rfl := List.map_eq_nil_iff.1 hrest
      rw [stamped, List.map_singleton, guide.stamped]
      exact h
  | @cons guide isGuide token rest tail ih =>
      obtain ⟨⟨gap, guide⟩, others, rfl, rfl, hothers⟩ := List.map_eq_cons_iff.1 htokens
      obtain ⟨⟨between, token⟩, others, rfl, rfl, rfl⟩ := List.map_eq_cons_iff.1 hothers
      cases h with
      | cons blank lexeme ends htail =>
      cases htail with
      | cons blankBetween lexemeToken endsToken htail =>
          have hhead := head?_stamped (.quotedText content) htail tail
          rw [stamped_cons_cons _ isGuide]
          by_cases hstamp : token.isKeyword "current_timestamp" = true
          · rw [Token.stamped, if_pos hstamp]
            have hends : (Token.quotedText content).EndsBefore (stamped (.quotedText content) others).text := by
              obtain ⟨c, letters, hfirst, hquote, -⟩ := text_of_guided [] htail tail
              intro d hd
              rw [hhead, hfirst] at hd
              cases hd
              simpa [Token.continues] using hquote
            refine .cons blank lexeme ?_ (.cons blankBetween (.text content) hends (ih htail rfl))
            cases between with
            | cons d between => exact endsBefore_of_blank _ _ (blankBetween d List.mem_cons_self) _ _
            | nil =>
                rintro d ⟨⟩
                exact isGuide.not_continues_quote
          · have hends : token.EndsBefore (stamped (.quotedText content) others).text := by
              intro d hd
              rw [hhead] at hd
              exact endsToken d hd
            rw [Token.stamped, if_neg hstamp]
            refine .cons blank lexeme ?_ (.cons blankBetween lexemeToken hends (ih htail rfl))
            obtain ⟨c, letters, hchars, -⟩ := lexemeToken.first
            intro d hd
            refine ends d ?_
            rw [text, hchars] at hd ⊢
            cases between with
            | nil => exact hd
            | cons e between => exact hd

/-- Before a guide other than a comma no truth value ends. -/
theorem endsValue_guided {guide : Token} (h : Token.Guide guide) (gap : List Char) (rest : Layout) :
    endsValue ((gap, guide) :: rest) = (guide == .comma) := by
  rw [endsValue]
  cases h with
  | @keyword word known =>
      have hclosing : ∀ word ∈ Token.guideWords, closingWords.contains word = false := by decide
      rw [Token.isClosingWord, hclosing _ known, Bool.and_false]
      rfl
  | equals => exact Bool.and_false _
  | comma => rfl

end Layout

namespace Token

/-- Some tokens with truth values in place of the zeros and ones between an equals sign or a comma
and a comma. Every other token, beginning with the first one, is a guide. -/
def flagged : List Token → List Token
  | guide :: token :: next :: rest =>
      guide :: (if guide.opensValue && next == .comma then token.flag?.getD token else token) ::
        flagged (next :: rest)
  | tokens => tokens

theorem Guided.flagged {last : Token} {tokens : List Token} (h : Guided last tokens) :
    Guided last (flagged tokens) := by
  induction h with
  | last guide => exact .last guide
  | cons isGuide token tail ih =>
      obtain ⟨next, more, rfl, -⟩ := tail.head
      exact .cons isGuide _ ih

end Token

namespace Layout

variable {layout : Layout} {last : Token} {after : List Char}

/-- A layout that ends in a guide can be read back before a text that does not go on with it. -/
theorem before_of_guided (h : Legible layout) (hguided : Token.Guided last (layout.map Prod.snd))
    (hends : last.EndsBefore after) : LegibleBefore after layout := by
  refine h.before fun item hitem => ?_
  have hlast := hguided.getLast?.1
  rw [List.getLast?_map, hitem] at hlast
  cases hlast
  exact hends

/-- Replacing truth values between guides replaces tokens. -/
theorem replaceFlagsIn_guided (h : Legible layout)
    (hguided : Token.Guided last (layout.map Prod.snd)) (hends : last.EndsBefore after) :
    replaceFlagsIn none false (layout.text ++ after) =
      (putFlags false layout).text ++
        replaceFlagsIn last.chars.getLast? last.endsInWord after := by
  obtain ⟨hlast, hguide⟩ := hguided.getLast?
  rw [List.getLast?_map] at hlast
  obtain ⟨item, hitem, rfl⟩ := Option.map_eq_some_iff.1 hlast
  have hword : false = true → beginsValue none = false := fun _ => rfl
  exact replaceFlagsIn_text_append (before_of_guided h hguided hends) hitem
    (fun hdigit => absurd hdigit hguide.not_digit) hword

/-- Truth values are put between guides, and nowhere else. -/
theorem map_snd_putFlags (hguided : Token.Guided last (layout.map Prod.snd)) (opens : Bool) :
    (putFlags opens layout).map Prod.snd = Token.flagged (layout.map Prod.snd) := by
  generalize htokens : layout.map Prod.snd = tokens at hguided
  induction hguided generalizing layout opens with
  | last guide =>
      obtain ⟨⟨gap, token⟩, rest, rfl, rfl, hrest⟩ := List.map_eq_cons_iff.1 htokens
      obtain rfl := List.map_eq_nil_iff.1 hrest
      rw [putFlags, taken_eq_self fun hdigit => absurd hdigit guide.not_digit]
      rfl
  | @cons guide isGuide token rest tail ih =>
      obtain ⟨⟨gap, guide⟩, others, rfl, rfl, hothers⟩ := List.map_eq_cons_iff.1 htokens
      obtain ⟨⟨between, token⟩, others, rfl, rfl, rfl⟩ := List.map_eq_cons_iff.1 hothers
      obtain ⟨next, more, hnext, hguide⟩ := tail.head
      obtain ⟨⟨gapNext, next⟩, others, rfl, rfl, rfl⟩ := List.map_eq_cons_iff.1 hnext
      rw [putFlags, putFlags, taken_eq_self fun hdigit => absurd hdigit isGuide.not_digit,
        List.map_cons, List.map_cons, ih _ rfl, List.map_cons, Token.flagged, taken,
        endsValue_guided hguide]

end Layout

/-! ## Reading what is normalized -/

namespace Dialect

/-- Inside of a word the first character stays. -/
theorem head?_replaceNow (now text : List Char) :
    (replaceNow now true text).head? = text.head? := by
  cases front text with
  | nil => rw [replaceNow_nil]
  | span isQuote closes =>
      rw [replaceNow_span _ _ isQuote closes]
      rfl
  | dangling isQuote open_ =>
      rw [replaceNow_dangling _ _ isQuote open_]
      rfl
  | plain notQuote =>
      rw [replaceNow_inWord _ (quotedRun?_plain notQuote _)]
      rfl

theorem head?_replaceFlagsIn (before : Option Char) (text : List Char) :
    (replaceFlagsIn before true text).head? = text.head? := by
  cases front text with
  | nil => rw [replaceFlagsIn_nil]
  | span isQuote closes =>
      rw [replaceFlagsIn_span _ _ isQuote closes]
      rfl
  | dangling isQuote open_ =>
      rw [replaceFlagsIn_dangling _ _ isQuote open_]
      rfl
  | @plain c rest notQuote =>
      have hflag : beginsFlag before true c = false := by simp [beginsFlag]
      rw [replaceFlagsIn_of_not_flag _ _ (quotedRun?_plain notQuote _) (.inl hflag)]
      rfl

end Dialect

/-- What a text is once normalized, given that it stands behind a keyword. -/
def Dialect.behind (stamp keyword : Token) (text : List Char) : List Char :=
  replaceFlagsIn keyword.chars.getLast? true (replaceNow stamp.chars true text)

/-- The tokens of a text that begins with guided ones, once it is normalized. -/
theorem ofText_normalize_guided {layout : Layout} {last : Token} (content : String)
    {after : List Char} (h : layout.Legible) (hguided : Token.Guided last (layout.map Prod.snd))
    (hword : last.endsInWord = true) (hends : last.EndsBefore after) :
    Token.ofText (Dialect.normalize (String.ofList (Token.quotedText content).chars)
        (String.ofList (layout.text ++ after))) =
      Token.flagged ((layout.map Prod.snd).map fun token => token.stamped (.quotedText content)) ++
        Token.scan (Dialect.behind (.quotedText content) last after) := by
  have hstamped := Layout.legible_stamped content h hguided
  have hguides : Token.Guided last ((layout.stamped (.quotedText content)).map Prod.snd) := by
    rw [Layout.map_snd_stamped]
    exact hguided.stamped _
  have hclock : last.EndsBefore (replaceNow (Token.quotedText content).chars true after) :=
    hends.of_head? (head?_replaceNow _ after)
  have hflags := Layout.replaceFlagsIn_guided hstamped hguides hclock
  rw [hword] at hflags
  have hflagged : Token.Guided last
      ((Layout.putFlags false (layout.stamped (.quotedText content))).map Prod.snd) := by
    rw [Layout.map_snd_putFlags hguides]
    exact hguides.flagged
  have hbehind : last.EndsBefore (Dialect.behind (.quotedText content) last after) :=
    hclock.of_head? (head?_replaceFlagsIn _ _)
  have hlegible := Layout.legible_putFlags hstamped false
  rw [Token.ofText, Dialect.normalize, String.toList_ofList, String.toList_ofList,
    String.toList_ofList, normalizeChars, Layout.replaceNow_guided _ h hguided, hword]
  refine (congrArg Token.scan hflags).trans ?_
  refine (Layout.before_of_guided hlegible hflagged hbehind).scan.trans ?_
  rw [Layout.map_snd_putFlags hguides, Layout.map_snd_stamped]

end ClosedSql
