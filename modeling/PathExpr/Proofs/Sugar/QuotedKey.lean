import PathExpr.Proofs.Excerpts
import PathExpr.Proofs.Sugar.Spacing

-- What cleaning makes of a key in brackets and quotes, and when brackets pass for those
-- of a key at the first look but not at the second.
namespace PathExpr.Sugar

variable {closing opening : Char → Bool} {key content rest text : Text} {c : Char}

theorem squeeze_marks (closed : closing '\'' = true) (opened : opening '\'' = true) (key : Text) :
    squeeze closing opening false (inMarks key) = inMarks (squeeze closing opening false (Text.trim isSpace key)) := by
  have inside : squeeze closing opening true (key ++ ['\'',']']) =
      squeeze closing opening false (Text.trim isSpace key) ++ ['\'',']'] := by
    rw [squeeze_enclosed rfl opened,squeeze_visible rfl]
    rfl
  rw [inMarks,inMarks,List.append_assoc,List.cons_append,List.cons_append,squeeze_visible rfl,squeeze_visible rfl,
    closed,List.nil_append,inside]
  rfl

theorem squeeze_nonempty (member : c ∈ text) (visible : isSpace c = false) :
    squeeze closing opening false (Text.trim isSpace text) ≠ [] := by
  have loses := (Text.loses_trim text).trans (loses_squeeze closing opening false (Text.trim isSpace text))
  have kept := spaceless_loses loses
  intro empty
  have within : c ∈ spaceless text := List.mem_filter.mpr ⟨member,by rw [visible]; rfl⟩
  rw [← kept,empty] at within
  cases within

theorem tighten_marks (key : Text) : tighten (inMarks key) = inMarks (tighten (Text.trim isSpace key)) := by
  rw [tighten_squeeze,tighten_squeeze]
  exact squeeze_marks rfl rfl key

theorem pass_bracket (first : (tighten text).head? = some '[') : pass text = tighten text :=
  pass_other (by simp [first]) (by simp [first])

theorem key_literal (visible : ∃ c ∈ key, c ≠ ' ') :
    pass (inMarks key) = tighten (inMarks key) ∧ round (inMarks key) = .ended (Text.strip (tighten key)) ∧
      clean (inMarks key) = Text.strip (tighten key) ∧ cleanBracketed (inMarks key) = Text.strip (tighten key) := by
  obtain ⟨c,member,other⟩ := visible
  have seen : isSpace c = false := beq_eq_false_iff_ne.mpr other
  have passed : pass (inMarks key) = tighten (inMarks key) := pass_bracket (by rw [tighten_marks]; rfl)
  have quoted : isQuotedKey (pass (inMarks key)) = true := by
    rw [passed,tighten_squeeze,squeeze_marks rfl rfl]
    exact isQuotedKey_marks (squeeze_nonempty member seen)
  have first : isQuotedKey (collapse ['\''] (inMarks key)) = true := by
    rw [collapse_squeeze rfl,squeeze_marks rfl rfl]
    exact isQuotedKey_marks (squeeze_nonempty member seen)
  have taken : quotedKey (pass (inMarks key)) = Text.strip (tighten key) := by
    have trimmed : Text.strip (Text.trim isSpace key) = Text.strip key := Text.trim_wider isBlank_of_isSpace key
    rw [passed,tighten_marks,inMarks,quotedKey_marks,tighten_strip,trimmed,← tighten_strip]
  have cleaned : clean (inMarks key) = Text.strip (tighten key) := (clean_key quoted).trans taken
  refine ⟨passed,?_,cleaned,?_⟩
  · rw [← taken]
    exact if_pos quoted
  · rw [cleanBracketed,if_pos first,cleaned]

theorem key_literal_sugar :
    let key := " ?( @ ['a ']) ".toList
    (∃ c ∈ key, c ≠ ' ') ∧ clean (inMarks key) = Text.strip (tighten key) ∧
      cleanBracketed (inMarks key) = Text.strip (tighten key) ∧ Text.strip (tighten key) = "?(@ ['a'])".toList := by
  intro key
  have visible : ∃ c ∈ key, c ≠ ' ' := ⟨'?',by decide,by decide⟩
  obtain ⟨_,_,cleaned,bracketed⟩ := key_literal visible
  exact ⟨visible,cleaned,bracketed,by decide +kernel⟩

theorem spaceless_spaces (empty : spaceless text = []) : ∀ c ∈ text, isSpace c = true := by
  intro c member
  have dropped := List.filter_eq_nil_iff.mp empty c member
  simpa using dropped

theorem spaceless_single (single : spaceless text = [c]) : ∃ front behind, text = front ++ c :: behind ∧
    isSpace c = false ∧ (∀ d ∈ front, isSpace d = true) ∧ ∀ d ∈ behind, isSpace d = true := by
  obtain ⟨front,behind,shape,before,visible,after⟩ := List.filter_eq_cons_iff.mp single
  refine ⟨front,behind,shape,by simpa using visible,?_,spaceless_spaces after⟩
  intro d member
  simpa using before d member

theorem content_quote (quoted : isQuotedKey (collapse ['\''] (inBrackets content)) = true) :
    ∃ front rest, content = front ++ '\'' :: rest ∧ ∀ c ∈ front, isSpace c = true := by
  obtain ⟨inside,shape⟩ := isQuotedKey_front quoted
  rw [collapse_squeeze rfl,inBrackets,squeeze_visible rfl] at shape
  have next := (List.cons.inj shape).2
  have first := find_loses (loses_squeeze (isOne '\'') (isOne '\'') (isOne '\'' '[') (content ++ [']']))
  rw [next,List.find?_append] at first
  have found : content.find? (fun c => !isSpace c) = some '\'' := by
    cases front : content.find? fun c => !isSpace c with
    | none => rw [front] at first; cases first
    | some c => rw [front] at first; exact first.symm
  obtain ⟨_,front,rest,split,before⟩ := List.find?_eq_some_iff_append.mp found
  refine ⟨front,rest,split,?_⟩
  intro c member
  simpa using before c member

theorem squeeze_content {front : Text} (closed : closing '\'' = true) (opened : opening '\'' = true)
    (spaces : ∀ c ∈ front, isSpace c = true) : squeeze closing opening false (inBrackets (front ++ '\'' :: rest)) =
      '[' :: '\'' :: squeeze closing opening true (rest ++ [']']) := by
  rw [inBrackets,squeeze_visible rfl,List.append_assoc,List.cons_append,
    squeeze_spaces spaces (by rw [opens_visible rfl,opened,Bool.or_true]),squeeze_visible rfl,closed]

theorem squeeze_single {front behind : Text} (visible : isSpace c = false) (before : ∀ d ∈ front, isSpace d = true) :
    squeeze closing opening true (front ++ c :: behind ++ [']']) =
      c :: squeeze closing opening (closing c) (behind ++ [']']) := by
  rw [List.append_assoc,List.cons_append,squeeze_spaces before rfl,squeeze_visible visible]

theorem isOne_markless (plain : isMark c = false) : isOne '\'' c = false := by
  refine Bool.eq_false_iff.mpr fun quote => ?_
  rw [eq_of_beq quote] at plain
  cases plain

-- Of a single character behind the quote spaces are taken at the second look only if it
-- is a parenthesis. A quote had lost them at the first.
theorem single_room (single : spaceless rest = [c])
    (room : 3 ≤ (squeeze (isOne '\'') (isOne '\'') true (rest ++ [']'])).length) :
    if isMark c then c ≠ '\'' ∧ squeeze isMark isMark true (rest ++ [']']) = [c,']']
    else 3 ≤ (squeeze isMark isMark true (rest ++ [']'])).length := by
  obtain ⟨front,behind,rfl,visible,before,after⟩ := spaceless_single single
  have closes {closing opening : Char → Bool} : squeeze closing opening true (behind ++ [']']) = [']'] :=
    squeeze_spaces after rfl
  rw [squeeze_single visible before] at room ⊢
  split
  · rename_i marks
    rw [marks,closes]
    refine ⟨?_,rfl⟩
    rintro rfl
    rw [isOne_self,closes] at room
    simp at room
  · rename_i plain
    have unmarked : isMark c = false := Bool.eq_false_iff.mpr plain
    have markless : ∀ d ∈ behind ++ [']'], isMark d = false := by
      intro d member
      rcases List.mem_append.mp member with space | last
      · rw [eq_of_beq (after d space)]
        rfl
      · rw [List.mem_singleton.mp last]
        rfl
    have quoteless (d : Char) (member : d ∈ behind ++ [']']) := isOne_markless (markless d member)
    rw [isOne_markless unmarked,squeeze_markless fun d member => ⟨quoteless d member,quoteless d member⟩] at room
    rw [unmarked,squeeze_markless fun d member => ⟨markless d member,markless d member⟩]
    exact room

theorem spaceless_quote {front : Text} (spaces : ∀ c ∈ front, isSpace c = true) (rest : Text) :
    spaceless (front ++ '\'' :: rest) = '\'' :: spaceless rest := by
  have gone : spaceless front = [] := by
    apply List.filter_eq_nil_iff.mpr
    intro c member
    simp [spaces c member]
  rw [spaceless,List.filter_append,← spaceless,gone]
  rfl

theorem squeeze_room (room : 3 ≤ (squeeze (isOne '\'') (isOne '\'') true (rest ++ [']'])).length) :
    3 ≤ (squeeze isMark isMark true (rest ++ [']'])).length ↔ ¬(spaceless rest = ['('] ∨ spaceless rest = [')']) := by
  match shape : spaceless rest with
  | [] =>
    rw [squeeze_spaces (spaceless_spaces shape) rfl,squeeze_visible rfl] at room
    simp [squeeze] at room
  | [c] =>
    have single := single_room shape room
    split at single
    · rename_i marks
      obtain ⟨other,swept⟩ := single
      have paren : c = '(' ∨ c = ')' := by simpa [isMark,other] using marks
      rw [swept]
      refine iff_of_false (by simp) fun absent => absent ?_
      exact paren.imp (congrArg fun c => [c]) (congrArg fun c => [c])
    · rename_i plain
      refine iff_of_true single ?_
      rintro (paren | paren)
      · rw [(List.cons.inj paren).1] at plain
        exact plain rfl
      · rw [(List.cons.inj paren).1] at plain
        exact plain rfl
  | first :: second :: more =>
    have kept := spaceless_loses (loses_squeeze isMark isMark true (rest ++ [']']))
    have bound := List.length_filter_le (fun c => !isSpace c) (squeeze isMark isMark true (rest ++ [']']))
    have whole : spaceless (rest ++ [']']) = first :: second :: (more ++ [']']) := by
      rw [spaceless,List.filter_append,← spaceless,shape]
      rfl
    rw [← spaceless,kept,whole] at bound
    simp only [List.length_cons,List.length_append,List.length_nil] at bound
    refine iff_of_true (by omega) ?_
    simp

-- A quote and a parenthesis alone are one character short of a key in brackets.
def Stub (content : Text) : Prop := spaceless content = ['\'','('] ∨ spaceless content = ['\'',')']

theorem tighten_content {front : Text} (spaces : ∀ c ∈ front, isSpace c = true) :
    tighten (inBrackets (front ++ '\'' :: rest)) = '[' :: '\'' :: squeeze isMark isMark true (rest ++ [']']) := by
  rw [tighten_squeeze]
  exact squeeze_content rfl rfl spaces

theorem stub_quote {front : Text} (spaces : ∀ c ∈ front, isSpace c = true) :
    Stub (front ++ '\'' :: rest) ↔ spaceless rest = ['('] ∨ spaceless rest = [')'] := by
  rw [Stub,spaceless_quote spaces,List.cons_inj_right,List.cons_inj_right]

theorem quote_room {front : Text} (spaces : ∀ c ∈ front, isSpace c = true)
    (quoted : isQuotedKey (collapse ['\''] (inBrackets (front ++ '\'' :: rest))) = true) :
    3 ≤ (squeeze (isOne '\'') (isOne '\'') true (rest ++ [']'])).length := by
  rwa [collapse_squeeze rfl,squeeze_content rfl rfl spaces,isQuotedKey_inner] at quoted

theorem quoted_tighten (quoted : isQuotedKey (collapse ['\''] (inBrackets content)) = true) :
    isQuotedKey (tighten (inBrackets content)) = true ↔ ¬Stub content := by
  obtain ⟨front,rest,rfl,spaces⟩ := content_quote quoted
  rw [tighten_content spaces,isQuotedKey_inner,squeeze_room (quote_room spaces quoted),stub_quote spaces]

theorem quoted_shape (quoted : isQuotedKey text = true) (last : text.getLast? = some ']') :
    ∃ key closing, text = '[' :: '\'' :: (key ++ [closing,']']) := by
  obtain ⟨inner,rfl⟩ := isQuotedKey_front quoted
  rw [isQuotedKey_inner] at quoted
  rcases List.eq_nil_or_concat inner with rfl | ⟨front,d,rfl⟩
  · simp at quoted
  · rw [List.concat_eq_append] at quoted last ⊢
    rw [← List.cons_append,← List.cons_append,List.getLast?_concat] at last
    cases last
    rcases List.eq_nil_or_concat front with rfl | ⟨key,closing,rfl⟩
    · simp at quoted
    · exact ⟨key,closing,by simp⟩

theorem tighten_bracket (content : Text) : (tighten (inBrackets content)).head? = some '[' ∧
    (tighten (inBrackets content)).getLast? = some ']' := by
  have last : (['['] ++ content ++ [']']).getLast? = some ']' := List.getLast?_concat
  rw [tighten_squeeze]
  exact ⟨squeeze_head rfl rfl,squeeze_last last rfl⟩

theorem cleanBracketed_stub (quoted : isQuotedKey (collapse ['\''] (inBrackets content)) = true)
    (stub : Stub content) : cleanBracketed (inBrackets content) = inBrackets (spaceless content) := by
  have bracketed : cleanBracketed (inBrackets content) = clean (inBrackets content) := if_pos quoted
  rw [bracketed,← clean_tighten]
  obtain ⟨front,rest,rfl,spaces⟩ := content_quote quoted
  have tight {paren : Char} (marks : isMark paren = true) (single : spaceless rest = [paren]) :
      tighten (inBrackets (front ++ '\'' :: rest)) = ['[','\'',paren,']'] := by
    have room := single_room single (quote_room spaces quoted)
    rw [if_pos marks] at room
    rw [tighten_content spaces,room.2]
  rw [spaceless_quote spaces]
  rcases (stub_quote spaces).mp stub with single | single
  · rw [tight rfl single,single]
    decide +kernel
  · rw [tight rfl single,single]
    decide +kernel

theorem bracketed_key (quoted : isQuotedKey (collapse ['\''] (inBrackets content)) = true) :
    let raw := inBrackets content
    (isQuotedKey (tighten raw) = true ↔ ¬Stub content) ∧
      (¬Stub content → ∃ key closing, tighten raw = '[' :: '\'' :: (key ++ [closing,']']) ∧
        round raw = .ended (Text.strip key) ∧ cleanBracketed raw = Text.strip key) ∧
      (Stub content → cleanBracketed raw = inBrackets (spaceless content)) := by
  intro raw
  refine ⟨quoted_tighten quoted,?_,cleanBracketed_stub quoted⟩
  intro whole
  have second : isQuotedKey (tighten raw) = true := (quoted_tighten quoted).mpr whole
  have passed : pass raw = tighten raw := pass_bracket (tighten_bracket content).1
  obtain ⟨key,closing,shape⟩ := quoted_shape second (tighten_bracket content).2
  have taken : quotedKey (pass raw) = Text.strip key := by
    rw [passed,shape,quotedKey_sliced]
  rw [← passed] at second
  refine ⟨key,closing,shape,?_,?_⟩
  · rw [← taken]
    exact if_pos second
  · have bracketed : cleanBracketed raw = clean raw := if_pos quoted
    rw [bracketed,clean_key second,taken]

theorem bracketed_key_padded :
    let content := " ' ) (a ' ".toList
    let raw := inBrackets content
    isQuotedKey (collapse ['\''] raw) = true ∧ ¬Stub content ∧ isQuotedKey (tighten raw) = true ∧
      (∃ key closing, tighten raw = '[' :: '\'' :: (key ++ [closing,']']) ∧
        round raw = .ended (Text.strip key) ∧ cleanBracketed raw = Text.strip key) ∧
      cleanBracketed raw = ")(a".toList := by
  intro content raw
  have quoted : isQuotedKey (collapse ['\''] raw) = true := by decide +kernel
  have whole : ¬Stub content := by
    rintro (same | same) <;> cases same
  have agrees := bracketed_key quoted
  exact ⟨quoted,whole,agrees.1.mpr whole,agrees.2.1 whole,by decide +kernel⟩

theorem brackets_left :
    cleanBracketed "[') ]".toList = "[')]".toList ∧
      ¬∀ content, isQuotedKey (collapse ['\''] (inBrackets content)) = true →
        isQuotedKey (tighten (inBrackets content)) = true := by
  refine ⟨by decide +kernel,?_⟩
  intro agrees
  have second := agrees "') ".toList (by decide +kernel)
  have short : isQuotedKey (tighten (inBrackets "') ".toList)) = false := by decide +kernel
  rw [short] at second
  cases second

end PathExpr.Sugar
