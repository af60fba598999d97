import Mathlib.Data.List.Basic

namespace Patterns

-- Search patterns over any alphabet. Only whether a match exists is modelled:
-- priorities and captured groups of a backtracking engine are left out.
inductive Pattern (α : Type) where
  | empty
  | one (accepts : α → Bool)
  | edge (word : α → Bool)
  | seq (first second : Pattern α)
  | alt (left right : Pattern α)
  | star (body : Pattern α)

variable {α : Type}

def seqs (items : List (Pattern α)) : Pattern α := items.foldr .seq .empty
def alts : List (Pattern α) → Pattern α
  | [] => .one fun _ => false
  | [item] => item
  | item :: rest => .alt item (alts rest)
def literal [DecidableEq α] (text : List α) : List (Pattern α) := text.map fun c => .one fun d => decide (d = c)
def plus (accepts : α → Bool) : List (Pattern α) := [.one accepts,.star (.one accepts)]
def many (accepts : α → Bool) : Pattern α := .star (.one accepts)

-- A word edge separates a word element from anything else, the ends included.
def atEdge (word : α → Bool) (prev next : Option α) : Bool := prev.any word != next.any word

def after (prev : Option α) (text : List α) : Option α := text.getLast?.or prev

@[simp] theorem after_nil (prev : Option α) : after prev [] = prev := rfl
@[simp] theorem after_singleton (prev : Option α) (c : α) : after prev [c] = some c := rfl

theorem after_append (prev : Option α) (one two : List α) : after prev (one ++ two) = after (after prev one) two := by
  simp [after,List.getLast?_append,Option.or_assoc]

@[simp] theorem after_cons (prev : Option α) (c : α) (text : List α) : after prev (c :: text) = after (some c) text := by
  simpa using after_append prev [c] text

-- The pattern reads `matched` between the element before it and the text after it.
inductive Matches : Pattern α → Option α → List α → List α → Prop where
  | empty : Matches .empty prev [] rest
  | one : accepts c = true → Matches (.one accepts) prev [c] rest
  | edge : atEdge word prev rest.head? = true → Matches (.edge word) prev [] rest
  | seq : Matches first prev u (v ++ rest) → Matches second (after prev u) v rest →
      Matches (.seq first second) prev (u ++ v) rest
  | altLeft : Matches left prev u rest → Matches (.alt left right) prev u rest
  | altRight : Matches right prev u rest → Matches (.alt left right) prev u rest
  | starNil : Matches (.star body) prev [] rest
  | starCons : Matches body prev u (v ++ rest) → Matches (.star body) (after prev u) v rest →
      Matches (.star body) prev (u ++ v) rest

def Found (pattern : Pattern α) (prev : Option α) (text : List α) : Prop :=
  ∃ before matched rest, text = before ++ matched ++ rest ∧ Matches pattern (after prev before) matched rest

-- Repetition with a bound: a body that reads nothing cannot be asked again.
def repeated (body : (Option α → List α → Bool) → Option α → List α → Bool) (done : Option α → List α → Bool) :
    Nat → Option α → List α → Bool
  | 0,prev,text => done prev text
  | bound+1,prev,text => done prev text ||
      body (fun prev' rest => decide (rest.length < text.length) && repeated body done bound prev' rest) prev text

def accepted : Pattern α → (Option α → List α → Bool) → Option α → List α → Bool
  | .empty,done,prev,text => done prev text
  | .one _,_,_,[] => false
  | .one accepts,done,_,c :: text => accepts c && done (some c) text
  | .edge word,done,prev,text => atEdge word prev text.head? && done prev text
  | .seq first second,done,prev,text => accepted first (accepted second done) prev text
  | .alt left right,done,prev,text => accepted left done prev text || accepted right done prev text
  | .star body,done,prev,text => repeated (accepted body) done text.length prev text

def searchFrom (pattern : Pattern α) : Option α → List α → Bool
  | prev,[] => accepted pattern (fun _ _ => true) prev []
  | prev,c :: text => accepted pattern (fun _ _ => true) prev (c :: text) || searchFrom pattern (some c) text

def search (pattern : Pattern α) (text : List α) : Bool := searchFrom pattern none text

-- What the executable matcher asks of the text left over, for one pattern.
def Exact (pattern : Pattern α) : Prop :=
  ∀ done prev text, accepted pattern done prev text = true ↔
    ∃ matched rest, text = matched ++ rest ∧ Matches pattern prev matched rest ∧ done (after prev matched) rest = true

theorem repeated_sound (body : Pattern α) (exact : Exact body) (done : Option α → List α → Bool) (bound : Nat)
    (prev : Option α) (text : List α) (ran : repeated (accepted body) done bound prev text = true) :
    ∃ matched rest, text = matched ++ rest ∧ Matches (.star body) prev matched rest ∧
      done (after prev matched) rest = true := by
  induction bound generalizing prev text with
  | zero => exact ⟨[],text,rfl,.starNil,ran⟩
  | succ bound ih =>
      rw [repeated,Bool.or_eq_true] at ran
      rcases ran with stop | again
      · exact ⟨[],text,rfl,.starNil,stop⟩
      · obtain ⟨first,left,rfl,head,more⟩ := (exact _ _ _).mp again
        rw [Bool.and_eq_true] at more
        obtain ⟨second,rest,rfl,tail,finished⟩ := ih _ _ more.2
        refine ⟨first ++ second,rest,by simp,.starCons head tail,?_⟩
        rwa [after_append]

theorem repeated_complete (body : Pattern α) (exact : Exact body) (done : Option α → List α → Bool)
    (path : Matches (.star body) prev matched rest) (bound : Nat) (enough : matched.length ≤ bound)
    (finished : done (after prev matched) rest = true) :
    repeated (accepted body) done bound prev (matched ++ rest) = true := by
  generalize same : Pattern.star body = pattern at path
  induction path generalizing bound with
  | starNil => cases bound <;> simp_all [repeated]
  | @starCons _ prev first second rest head more _ ih =>
      cases same
      -- An iteration that reads nothing is skipped; the others use up the bound.
      by_cases still : first = []
      · subst still
        simpa using ih bound (by simpa using enough) (by simpa using finished) rfl
      · have positive : 0 < first.length := List.length_pos_iff.mpr still
        cases bound with
        | zero => simp only [List.length_append] at enough; omega
        | succ bound =>
            rw [repeated,Bool.or_eq_true]
            refine .inr ((exact _ _ _).mpr ⟨first,second ++ rest,by simp,head,?_⟩)
            rw [Bool.and_eq_true]
            refine ⟨by simpa using positive,ih bound ?_ (by rwa [← after_append]) rfl⟩
            simp only [List.length_append] at enough
            omega
  | _ => cases same

theorem accepted_exact (pattern : Pattern α) : Exact pattern := by
  induction pattern with
  | empty =>
      intro done prev text
      refine ⟨fun ran => ⟨[],text,rfl,.empty,ran⟩,?_⟩
      intro shown
      obtain ⟨matched,rest,rfl,path,finished⟩ := shown
      cases path; exact finished
  | one accepts =>
      intro done prev text
      constructor
      · intro ran
        cases text with
        | nil => cases ran
        | cons c text =>
            rw [accepted,Bool.and_eq_true] at ran
            exact ⟨[c],text,rfl,.one ran.1,ran.2⟩
      · intro shown
        obtain ⟨matched,rest,rfl,path,finished⟩ := shown
        cases path with
        | one ok => simpa [accepted,ok] using finished
  | edge word =>
      intro done prev text
      constructor
      · intro ran
        rw [accepted,Bool.and_eq_true] at ran
        exact ⟨[],text,rfl,.edge ran.1,ran.2⟩
      · intro shown
        obtain ⟨matched,rest,rfl,path,finished⟩ := shown
        cases path with
        | edge here => simpa [accepted,here] using finished
  | seq first second left right =>
      intro done prev text
      rw [accepted,left]
      constructor
      · intro shown
        obtain ⟨u,tail,rfl,head,more⟩ := shown
        obtain ⟨v,rest,rfl,path,finished⟩ := (right _ _ _).mp more
        exact ⟨u ++ v,rest,by simp,.seq head path,by rwa [after_append]⟩
      · intro shown
        obtain ⟨matched,rest,rfl,path,finished⟩ := shown
        cases path with
        | @seq _ _ u v _ _ head tail =>
            refine ⟨u,v ++ rest,by simp,head,(right _ _ _).mpr ⟨v,rest,rfl,tail,?_⟩⟩
            rwa [← after_append]
  | alt left right one two =>
      intro done prev text
      rw [accepted,Bool.or_eq_true,one,two]
      constructor
      · rintro (⟨u,rest,equal,path,finished⟩ | ⟨u,rest,equal,path,finished⟩)
        · exact ⟨u,rest,equal,.altLeft path,finished⟩
        · exact ⟨u,rest,equal,.altRight path,finished⟩
      · intro shown
        obtain ⟨u,rest,equal,path,finished⟩ := shown
        cases path with
        | altLeft path => exact .inl ⟨u,rest,equal,path,finished⟩
        | altRight path => exact .inr ⟨u,rest,equal,path,finished⟩
  | star body exact =>
      intro done prev text
      refine ⟨repeated_sound body exact done _ prev text,?_⟩
      intro shown
      obtain ⟨matched,rest,rfl,path,finished⟩ := shown
      exact repeated_complete body exact done path _ (by simp) finished

theorem searchFrom_exact (pattern : Pattern α) (prev : Option α) (text : List α) :
    searchFrom pattern prev text = true ↔ Found pattern prev text := by
  induction text generalizing prev with
  | nil =>
      rw [searchFrom,accepted_exact]
      constructor
      · intro shown
        obtain ⟨matched,rest,equal,path,_⟩ := shown
        exact ⟨[],matched,rest,equal,path⟩
      · intro shown
        obtain ⟨before,matched,rest,equal,path⟩ := shown
        obtain ⟨rfl,rfl,rfl⟩ : before = [] ∧ matched = [] ∧ rest = [] := by simpa using equal.symm
        exact ⟨[],[],rfl,path,rfl⟩
  | cons c text ih =>
      rw [searchFrom,Bool.or_eq_true,accepted_exact,ih]
      constructor
      · rintro (⟨matched,rest,equal,path,_⟩ | ⟨before,matched,rest,rfl,path⟩)
        · exact ⟨[],matched,rest,equal,path⟩
        · exact ⟨c :: before,matched,rest,by simp,by simpa using path⟩
      · intro shown
        obtain ⟨before,matched,rest,equal,path⟩ := shown
        cases before with
        | nil => exact .inl ⟨matched,rest,equal,path,rfl⟩
        | cons d before =>
            obtain ⟨rfl,rfl⟩ := List.cons.inj equal
            exact .inr ⟨before,matched,rest,rfl,by simpa using path⟩

theorem search_exact (pattern : Pattern α) (text : List α) : search pattern text = true ↔ Found pattern none text :=
  searchFrom_exact pattern none text

end Patterns
