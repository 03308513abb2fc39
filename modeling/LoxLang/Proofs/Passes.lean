/-
# LoxLang.Proofs.Passes -- each pass takes a stretch of the tokens

Reading goes over the tokens in passes.  Here the passes are given their places: the tokens
in front of the first one that ends the text fall into consecutive stretches, one for each
pass, none of them empty.  A stretch either derives a statement or holds the token that the
pass is reported for; in the latter case it ends where reading may go on, and at the first
such place behind that token.

Places are counted from the start of the list.  None of them lies behind the token that
ends the text, and the places of the reported tokens increase strictly.
-/
import LoxLang.Proofs.Recovery

namespace LoxLang.Descent

open LoxLang.Derivation

set_option autoImplicit false

/-! ## Where reading goes on -/

/-- Reading may go on at a place behind a semicolon, and in front of a word that starts a statement
or of the token that ends the text. -/
def ResumesAt (ts : List Token) (place : Nat) : Prop :=
  (∃ t ∈ ts[place - 1]?, t.kind = .semicolon) ∨
    ∃ t ∈ ts[place]?, t.kind ∈ statementStarts ∨ t.kind = .endOfInput

theorem resumesAt_append (before ts : List Token) {place : Nat} (behind : 0 < place) :
    ResumesAt (before ++ ts) (before.length + place) ↔ ResumesAt ts place := by
  have previous : before.length + place - 1 - before.length = place - 1 := by omega
  have next : before.length + place - before.length = place := by omega
  rw [ResumesAt, ResumesAt, List.getElem?_append_right (by omega),
    List.getElem?_append_right (by omega), previous, next]

section Recover

variable {eof : Token} (tail : List Token) (ends : eof.kind = .endOfInput)

include ends

/-- `recover` stops at the first place behind the token at fault where reading may go on. -/
theorem recover_eq_drop (ts : List Token) (inside : ∀ t ∈ ts, t.kind ≠ .endOfInput)
    (nonempty : ts ≠ []) :
    ∃ place, 0 < place ∧ place ≤ ts.length ∧ recover ts = ts.drop place ∧
      ResumesAt (ts ++ eof :: tail) place ∧
      ∀ j, 0 < j → j < place → ¬ ResumesAt (ts ++ eof :: tail) j := by
  induction ts with
  | nil => exact absurd rfl nonempty
  | cons t ts ih =>
      have first : ∀ j, 0 < j → j < 1 → ¬ ResumesAt (t :: ts ++ eof :: tail) j := by omega
      by_cases semicolon : t.kind = .semicolon
      · refine ⟨1, Nat.one_pos, by simp, ?_, .inl ⟨t, rfl, semicolon⟩, first⟩
        simp only [recover, if_pos semicolon, List.drop_one, List.tail_cons]
      · cases ts with
        | nil =>
            refine ⟨1, Nat.one_pos, Nat.le_refl _, ?_, .inr ⟨eof, rfl, .inr ends⟩, first⟩
            simp only [recover, if_neg semicolon, List.drop_one, List.tail_cons]
        | cons next ts =>
            rw [recover_cons_cons, if_neg semicolon]
            by_cases start : next.kind ∈ statementStarts
            · refine ⟨1, Nat.one_pos, by simp, ?_, .inr ⟨next, rfl, .inl start⟩, first⟩
              rw [if_pos start, List.drop_one, List.tail_cons]
            · rw [List.forall_mem_cons] at inside
              obtain ⟨place, behind, bound, same, resumes, earliest⟩ :=
                ih inside.2 (List.cons_ne_nil next ts)
              have shift {j : Nat} (behind : 0 < j) :
                  ResumesAt (t :: next :: ts ++ eof :: tail) (j + 1) ↔
                    ResumesAt (next :: ts ++ eof :: tail) j := by
                rw [Nat.add_comm]
                exact resumesAt_append [t] _ behind
              refine ⟨place + 1, Nat.succ_pos _, Nat.succ_le_succ bound, ?_, (shift behind).mpr resumes,
                fun j positive before => ?_⟩
              · rw [if_neg start, same, List.drop_succ_cons]
              · obtain rfl | further : j = 1 ∨ 1 < j := by omega
                · -- Right behind the token at fault: it is no semicolon, and `next` starts nothing.
                  rintro (⟨u, found, kind⟩ | ⟨u, found, kind⟩)
                  · cases found
                    exact semicolon kind
                  · cases found
                    exact kind.elim start (List.forall_mem_cons.mp inside.2).1
                · obtain ⟨j, rfl⟩ : ∃ k, j = k + 1 := ⟨j - 1, by omega⟩
                  rw [shift (by omega)]
                  exact earliest j (by omega) (by omega)

end Recover

/-! ## Stretches -/

/-- How a pass ends: with a statement, or with a report about the token at a place. -/
inductive Outcome where
  | statement (node : Node)
  | report (cause : Cause) (place : Nat)

/-- The tokens from one place to another, which a pass takes. -/
structure Stretch where
  start : Nat
  stop : Nat
  outcome : Outcome

namespace Outcome

/-- The outcome of a pass over tokens behind which the text ends at a place. -/
def ofPass (ending : Nat) : Except Fault Node → Outcome
  | .ok node => .statement node
  | .error fault => .report fault.cause (ending - fault.rest.length)

def statement? : Outcome → Option Node
  | .statement node => some node
  | .report .. => none

def place? : Outcome → Option Nat
  | .statement _ => none
  | .report _ place => some place

/-- The diagnostic about the token at a place.  The token that ends the text has no line of its own
and takes that of the token in front of it. -/
def about (ts : List Token) (cause : Cause) (place : Nat) : Diagnostic :=
  let t := ts[place]?.getD Token.ending
  let line := if t.kind = .endOfInput then lastLine (ts.take place) else t.line
  match cause with
  | .tooDeep => .atLine line cause.message
  | _ => .atToken t cause.message (some line)

def diagnostic? (ts : List Token) : Outcome → Option Diagnostic
  | .statement _ => none
  | .report cause place => some (about ts cause place)

end Outcome

/-- A pass that took the tokens of a stretch ended as it says.  A statement is derived by them and
closed by their semicolon; a report is about one of them, and they go on to the first place behind it
where reading may go on; or it is about the end of the text, up to which they go. -/
def Stretch.Ends (ts : List Token) (ending : Nat) (s : Stretch) : Prop :=
  match s.outcome with
  | .statement node =>
      (∃ d : Declaration, d.yield = (ts.take s.stop).drop s.start ∧ d.ast = node) ∧
        ∃ t ∈ ts[s.stop - 1]?, t.kind = .semicolon
  | .report _ place =>
      (s.start ≤ place ∧ place < s.stop ∧ ResumesAt ts s.stop ∧
        ∀ j, place < j → j < s.stop → ¬ ResumesAt ts j) ∨
      place = ending ∧ s.stop = ending

/-- A stretch is not empty, lies in front of the end, and ended as it says. -/
structure Stretch.Sound (ts : List Token) (ending : Nat) (s : Stretch) : Prop where
  taken : s.start < s.stop
  inside : s.stop ≤ ending
  ends : s.Ends ts ending

/-- Each stretch starts where the one in front of it stops. -/
def Consecutive : (start stop : Nat) → List Stretch → Prop
  | start, stop, [] => start = stop
  | start, stop, s :: more => s.start = start ∧ Consecutive s.stop stop more

/-! ## One pass -/

/-- A pass that gives a statement takes the tokens that derive it. -/
theorem sound_of_statement (d : Declaration) (done after : List Token) {ending : Nat}
    (bound : done.length + d.yield.length ≤ ending) :
    Stretch.Sound (done ++ (d.yield ++ after)) ending
      ⟨done.length, done.length + d.yield.length, .statement d.ast⟩ := by
  obtain ⟨us, semicolon, yields, -⟩ := d.yield_eq
  have positive : 0 < d.yield.length := by simp [yields]
  refine ⟨Nat.lt_add_of_pos_right positive, bound, ⟨d, ?_, rfl⟩, semicolon.1, ?_, semicolon.2⟩
  · rw [← List.append_assoc, ← List.length_append, List.take_left, List.drop_left]
  · have last : done.length + d.yield.length - 1 = (done ++ us).length := by
      simp only [yields, List.length_append, List.length_singleton]
      omega
    have split : done ++ (d.yield ++ after) = (done ++ us) ++ (semicolon.1 :: after) := by
      simp only [yields, List.append_assoc, List.cons_append, List.nil_append]
    show semicolon.1 ∈ (done ++ (d.yield ++ after))[done.length + d.yield.length - 1]?
    rw [last, split, List.getElem?_append_right (Nat.le_refl _), Nat.sub_self]
    rfl

/-- A pass that is reported for the end of the text takes all that is left. -/
theorem sound_of_fault_at_end {ts done read : List Token} {ending : Nat} (cause : Cause)
    (nonempty : read ≠ []) (all : done.length + read.length = ending) :
    Stretch.Sound ts ending ⟨done.length, ending, .report cause ending⟩ := by
  have := List.length_pos_iff.mpr nonempty
  exact ⟨by simp only; omega, Nat.le_refl _, .inr ⟨rfl, rfl⟩⟩

/-- A pass that is reported for a token goes on to the first place behind it where reading may go
on. -/
theorem sound_of_fault {done read rest : List Token} {place ending : Nat} (cause : Cause)
    (positive : 0 < place) (bound : done.length + read.length + place ≤ ending)
    (resumes : ResumesAt rest place) (earliest : ∀ j, 0 < j → j < place → ¬ ResumesAt rest j) :
    Stretch.Sound (done ++ (read ++ rest)) ending
      ⟨done.length, done.length + read.length + place, .report cause (done.length + read.length)⟩ := by
  have shift {j : Nat} (behind : 0 < j) :
      ResumesAt (done ++ (read ++ rest)) (done.length + read.length + j) ↔ ResumesAt rest j := by
    rw [← List.append_assoc, ← List.length_append]
    exact resumesAt_append _ _ behind
  refine ⟨by simp only; omega, bound, .inl ⟨Nat.le_add_right _ _, Nat.lt_add_of_pos_right positive,
    (shift positive).mpr resumes, fun j behind before => ?_⟩⟩
  obtain ⟨k, rfl⟩ : ∃ k, j = done.length + read.length + k :=
    ⟨j - (done.length + read.length), by omega⟩
  simp only at before
  rw [shift (by omega)]
  exact earliest k (by omega) (by omega)

/-! ## All passes -/

/-- The passes over the tokens behind `done` take consecutive stretches up to the end. -/
theorem passes_stretches (limit : Nat) {eof : Token} (tail : List Token)
    (ends : eof.kind = .endOfInput) (us : List Token) (inside : ∀ u ∈ us, u.kind ≠ .endOfInput)
    (done : List Token) {ending : Nat} (all : done.length + us.length = ending) :
    ∃ stretches, Consecutive done.length ending stretches ∧
      (∀ s ∈ stretches, s.Sound (done ++ (us ++ eof :: tail)) ending) ∧
      stretches.map Stretch.outcome = (passes limit us).map (Outcome.ofPass ending) := by
  fun_induction passes limit us generalizing done with
  | case1 => exact ⟨[], all, List.forall_mem_nil _, rfl⟩
  | case2 t us node rest read ih =>
      obtain ⟨d, same, rfl, -⟩ := statement_sound read
      rw [same] at inside all ⊢
      rw [List.length_append] at all
      obtain ⟨stretches, consecutive, sound, outcomes⟩ := ih
        (fun u member => inside u (List.mem_append_right _ member)) (done ++ d.yield)
        (by rw [List.length_append]; omega)
      rw [List.length_append] at consecutive
      simp only [List.append_assoc] at sound ⊢
      refine ⟨⟨done.length, done.length + d.yield.length, .statement d.ast⟩ :: stretches,
        ⟨rfl, consecutive⟩, List.forall_mem_cons.mpr ⟨?_, sound⟩, ?_⟩
      · exact sound_of_statement d done _ (by omega)
      · rw [List.map_cons, outcomes]
        rfl
  | case3 t us fault failed ih =>
      obtain ⟨read, same, -⟩ := statement_passed failed
      have insideRest : ∀ u ∈ fault.rest, u.kind ≠ .endOfInput := fun u member =>
        inside u (same ▸ List.mem_append_right _ member)
      by_cases nonempty : fault.rest = []
      · rw [nonempty, List.append_nil] at same
        subst same
        refine ⟨[⟨done.length, ending, .report fault.cause ending⟩], ⟨rfl, rfl⟩,
          List.forall_mem_singleton.mpr (sound_of_fault_at_end fault.cause (List.cons_ne_nil t us) all), ?_⟩
        simp [nonempty, recover, Outcome.ofPass]
      · obtain ⟨place, positive, bound, skips, resumes, earliest⟩ :=
          recover_eq_drop tail ends fault.rest insideRest nonempty
        rw [same] at all ⊢
        rw [List.length_append] at all
        have whole : fault.rest.take place ++ fault.rest.drop place = fault.rest :=
          List.take_append_drop place fault.rest
        have length : (done ++ (read ++ fault.rest.take place)).length =
            done.length + read.length + place := by
          simp only [List.length_append, List.length_take]
          omega
        rw [skips] at ih
        obtain ⟨stretches, consecutive, sound, outcomes⟩ := ih
          (fun u member => insideRest u (List.mem_of_mem_drop member))
          (done ++ (read ++ fault.rest.take place)) (by rw [length, List.length_drop]; omega)
        rw [length] at consecutive
        have again : done ++ (read ++ fault.rest.take place) ++ (fault.rest.drop place ++ eof :: tail) =
            done ++ (read ++ (fault.rest ++ eof :: tail)) := by
          conv_rhs => rw [← whole]
          simp only [List.append_assoc]
        rw [again] at sound
        rw [List.append_assoc]
        refine ⟨⟨done.length, done.length + read.length + place,
            .report fault.cause (done.length + read.length)⟩ :: stretches,
          ⟨rfl, consecutive⟩, List.forall_mem_cons.mpr ⟨?_, sound⟩, ?_⟩
        · exact sound_of_fault fault.cause positive (by omega) resumes earliest
        · have offending : ending - fault.rest.length = done.length + read.length := by omega
          rw [List.map_cons, List.map_cons, skips, outcomes, Outcome.ofPass, offending]

/-- Every fault is in front of some end of the tokens. -/
theorem rest_suffix {limit : Nat} {us : List Token} {fault : Fault}
    (member : .error fault ∈ passes limit us) : fault.rest <:+ us := by
  fun_induction passes limit us with
  | case1 => cases member
  | case2 t us node rest read ih =>
      have leaves := statement_leaves limit t us
      rw [read] at leaves
      cases member with
      | tail _ member => exact (ih member).trans leaves.1
  | case3 t us fault' failed ih =>
      have leaves : fault'.rest <:+ t :: us := by
        have leaves := statement_leaves limit t us
        rwa [failed] at leaves
      cases member with
      | head => exact leaves
      | tail _ member => exact ((ih member).trans (recover_suffix _)).trans leaves

/-- The diagnostic of a fault is about the token at its place. -/
theorem diagnostic_eq_about {us tail : List Token} {eof : Token} (ends : eof.kind = .endOfInput)
    (inside : ∀ u ∈ us, u.kind ≠ .endOfInput) {fault : Fault} (suffix : fault.rest <:+ us) :
    fault.diagnostic (lastLine us) =
      Outcome.about (us ++ eof :: tail) fault.cause (us.length - fault.rest.length) := by
  obtain ⟨cause, rest⟩ := fault
  obtain ⟨read, rfl⟩ := suffix
  have place : (read ++ rest).length - rest.length = read.length := by
    rw [List.length_append, Nat.add_sub_cancel]
  rw [place, List.append_assoc]
  unfold Outcome.about
  rw [List.getElem?_append_right (Nat.le_refl _), Nat.sub_self, List.take_left]
  cases rest with
  | nil =>
      have same : Diagnostic.placeOf eof = Diagnostic.placeOf Token.ending := by
        rw [Diagnostic.placeOf, if_pos ends]
        rfl
      simp only [List.nil_append, List.getElem?_cons_zero, Option.getD_some, ends, if_true,
        List.append_nil]
      cases cause <;> simp only [Fault.diagnostic, Diagnostic.atToken, Option.getD_some, same]
  | cons t rest =>
      have other : t.kind ≠ .endOfInput := inside t (by simp)
      simp only [List.cons_append, List.getElem?_cons_zero, Option.getD_some, if_neg other]
      cases cause <;> rfl

theorem place_le {ts : List Token} {ending : Nat} {s : Stretch} (sound : s.Sound ts ending)
    {place : Nat} (reported : s.outcome.place? = some place) :
    s.start ≤ place ∧ (place < s.stop ∨ place = ending ∧ s.stop = ending) := by
  obtain ⟨start, stop, outcome⟩ := s
  obtain ⟨taken, inside, ends⟩ := sound
  cases outcome with
  | statement node => cases reported
  | report cause place' =>
      cases reported
      rcases ends with ⟨behind, before, -⟩ | ⟨rfl, atEnd⟩
      · exact ⟨behind, .inl before⟩
      · exact ⟨Nat.le_of_lt (Nat.lt_of_lt_of_le taken inside), .inr ⟨rfl, atEnd⟩⟩

/-- The reported tokens stand one behind the other. -/
theorem places_increase {ts : List Token} {ending : Nat} (stretches : List Stretch) {start : Nat}
    (consecutive : Consecutive start ending stretches)
    (sound : ∀ s ∈ stretches, s.Sound ts ending) :
    ((stretches.map Stretch.outcome).filterMap Outcome.place?).Pairwise (· < ·) ∧
      ∀ place ∈ (stretches.map Stretch.outcome).filterMap Outcome.place?,
        start ≤ place ∧ place ≤ ending := by
  induction stretches generalizing start with
  | nil => exact ⟨.nil, nofun⟩
  | cons s stretches ih =>
      obtain ⟨rfl, consecutive⟩ := consecutive
      rw [List.forall_mem_cons] at sound
      obtain ⟨increasing, within⟩ := ih consecutive sound.2
      have := sound.1.taken
      have := sound.1.inside
      have later : ∀ place ∈ (stretches.map Stretch.outcome).filterMap Outcome.place?,
          s.start ≤ place ∧ place ≤ ending := fun place member => by
        have := within place member
        omega
      rw [List.map_cons]
      cases reported : s.outcome.place? with
      | none =>
          rw [List.filterMap_cons_none reported]
          exact ⟨increasing, later⟩
      | some place =>
          rw [List.filterMap_cons_some reported]
          obtain ⟨behind, before⟩ := place_le sound.1 reported
          refine ⟨List.pairwise_cons.mpr ⟨fun next member => ?_, increasing⟩,
            List.forall_mem_cons.mpr ⟨⟨behind, by omega⟩, later⟩⟩
          rcases before with before | ⟨rfl, atEnd⟩
          · exact Nat.lt_of_lt_of_le before (within next member).1
          · -- Behind the end of the text no pass is left.
            cases stretches with
            | nil => simp at member
            | cons s' stretches =>
                have starts : s'.start = s.stop := consecutive.1
                have := (sound.2 s' List.mem_cons_self).taken
                have := (sound.2 s' List.mem_cons_self).inside
                omega

/-! ## The whole list -/

/-- The tokens that a rule leaves unread. -/
def unread : Parsed → List Token
  | .ok (_, rest) => rest
  | .error fault => fault.rest

theorem Leaves.unread_suffix {us : List Token} {p : Parsed} (leaves : Leaves us p) : unread p <:+ us := by
  match p, leaves with
  | .ok _, ⟨suffix, _⟩ => exact suffix
  | .error _, suffix => exact suffix

/-- Started at any place up to the end, a reader goes forward and stops at the end at the latest. -/
def StaysInFront (us : List Token) (reader : List Token → List Token) : Prop :=
  ∀ start ≤ us.length, ∃ stop, start ≤ stop ∧ stop ≤ us.length ∧ reader (us.drop start) = us.drop stop

theorem StaysInFront.of_suffix {us : List Token} {reader : List Token → List Token}
    (suffix : ∀ ts, reader ts <:+ ts) : StaysInFront us reader := by
  intro start bound
  have short := (suffix (us.drop start)).length_le
  rw [List.length_drop] at short
  refine ⟨us.length - (reader (us.drop start)).length, by omega, by omega, ?_⟩
  exact List.suffix_iff_eq_drop.mp ((suffix _).trans (List.drop_suffix start us))

theorem parse_staysInFront (us : List Token) (limit : Nat) (rule : Rule) :
    StaysInFront us fun ts => unread (parse limit rule ts) :=
  .of_suffix fun ts => (parse_leaves limit rule ts).unread_suffix

theorem statement_staysInFront (us : List Token) (limit : Nat) :
    StaysInFront us fun ts => unread (statement limit ts) := by
  refine .of_suffix fun ts => ?_
  cases ts with
  | nil => exact List.suffix_rfl
  | cons t ts => exact (statement_leaves limit t ts).unread_suffix

theorem recover_staysInFront (us : List Token) : StaysInFront us recover :=
  .of_suffix recover_suffix

/-- A list that closes has a first token that ends the text. -/
theorem body_split {ts : List Token} (closes : ts.getLast?.map Token.kind = some .endOfInput) :
    ∃ eof tail, ts = body ts ++ eof :: tail ∧ eof.kind = .endOfInput ∧
      ∀ t ∈ body ts, t.kind ≠ .endOfInput := by
  have inside : ∀ t ∈ body ts, t.kind ≠ .endOfInput := fun t member => by
    simpa using List.all_eq_true.mp List.all_takeWhile t member
  have split : body ts ++ ts.dropWhile (fun t => t.kind != .endOfInput) = ts :=
    List.takeWhile_append_dropWhile
  cases behind : ts.dropWhile (fun t => t.kind != .endOfInput) with
  | nil =>
      rw [behind, List.append_nil] at split
      obtain ⟨last, isLast, kind⟩ := Option.map_eq_some_iff.mp closes
      have member := List.mem_of_getLast? isLast
      rw [← split] at member
      exact absurd kind (inside last member)
  | cons eof tail =>
      have stops := List.head?_dropWhile_not (fun t : Token => t.kind != .endOfInput) ts
      rw [behind] at split stops
      exact ⟨eof, tail, split.symm, by simpa using stops, inside⟩

/-- What the passes over a list of tokens do, when the first token that ends the text is the one at
`ending`. -/
structure Partition (ts : List Token) (reading : Reading) (ending : Nat) (stretches : List Stretch) :
    Prop where
  atEnding : ∃ t ∈ ts[ending]?, t.kind = .endOfInput
  inFront : ∀ place < ending, ∀ t ∈ ts[place]?, t.kind ≠ .endOfInput
  consecutive : Consecutive 0 ending stretches
  sound : ∀ s ∈ stretches, s.Sound ts ending
  onePerPass : stretches.map Stretch.outcome =
    (passes ruleLimit (ts.take ending)).map (Outcome.ofPass ending)
  statements : reading.statements = (stretches.map Stretch.outcome).filterMap Outcome.statement?
  diagnostics : reading.diagnostics = (stretches.map Stretch.outcome).filterMap (Outcome.diagnostic? ts)
  increasing : ((stretches.map Stretch.outcome).filterMap Outcome.place?).Pairwise (· < ·)
  within : ∀ place ∈ (stretches.map Stretch.outcome).filterMap Outcome.place?, place ≤ ending

/-- Tokens in front of an end are read in a partition of them. -/
theorem partition_append {us : List Token} {eof : Token} (tail : List Token)
    (ends : eof.kind = .endOfInput) (inside : ∀ u ∈ us, u.kind ≠ .endOfInput) :
    ∃ stretches, Partition (us ++ eof :: tail) (read us) us.length stretches := by
  have front : (us ++ eof :: tail).take us.length = us := List.take_left
  have atEnd : (us ++ eof :: tail)[us.length]? = some eof := by
    rw [List.getElem?_append_right (Nat.le_refl _), Nat.sub_self, List.getElem?_cons_zero]
  obtain ⟨stretches, consecutive, sound, outcomes⟩ :=
    passes_stretches ruleLimit tail ends us inside [] (Nat.zero_add _)
  have increase := places_increase stretches consecutive sound
  refine ⟨stretches, ⟨eof, atEnd, ends⟩, ?_, consecutive, sound, ?_, ?_, ?_, increase.1,
    fun place member => (increase.2 place member).2⟩
  · intro place before t found
    rw [List.getElem?_append_left before] at found
    exact inside t (List.mem_of_getElem? found)
  · rw [front, outcomes]
  · rw [outcomes, List.filterMap_map]
    show (passes ruleLimit us).filterMap statementOf? = _
    congr 1
    funext outcome
    cases outcome <;> rfl
  · rw [outcomes, List.filterMap_map]
    show ((passes ruleLimit us).filterMap faultOf?).map _ = _
    rw [List.map_filterMap]
    refine List.filterMap_congr fun outcome member => ?_
    cases outcome with
    | ok node => rfl
    | error fault =>
        exact congrArg some (diagnostic_eq_about ends inside (rest_suffix member))

/-- **The passes partition the tokens.**  Every list of tokens that closes is read, and the tokens in
front of the first one that ends the text fall into consecutive stretches, one for each pass.  A
stretch gives a statement that its tokens derive, or a diagnostic about one of its tokens or about
the end.  The reported tokens stand one behind the other.  No rule, no statement and no recovery that
starts in front of the end goes beyond it, and what stands behind the end is not looked at. -/
theorem passes_partition_tokens {ts : List Token}
    (closes : ts.getLast?.map Token.kind = some .endOfInput) :
    ∃ (reading : Reading) (ending : Nat) (stretches : List Stretch),
      readTokens? ts = some reading ∧ Partition ts reading ending stretches ∧
      (∀ limit rule, StaysInFront (ts.take ending) fun us => unread (parse limit rule us)) ∧
      (∀ limit, StaysInFront (ts.take ending) fun us => unread (statement limit us)) ∧
      StaysInFront (ts.take ending) recover ∧
      ∀ more : List Token,
        (ts.take (ending + 1) ++ more).getLast?.map Token.kind = some .endOfInput →
        readTokens? (ts.take (ending + 1) ++ more) = some reading := by
  obtain ⟨eof, tail, split, ends, inside⟩ := body_split closes
  have reads : readTokens? ts = some (read (body ts)) := if_pos closes
  generalize body ts = us at split inside reads
  subst split
  obtain ⟨stretches, partition⟩ := partition_append tail ends inside
  refine ⟨read us, us.length, stretches, reads, partition, parse_staysInFront _,
    statement_staysInFront _, recover_staysInFront _, ?_⟩
  intro more closes'
  have shorter : (us ++ eof :: tail).take (us.length + 1) = us ++ [eof] := by
    rw [List.take_append, List.take_of_length_le (Nat.le_succ _), Nat.add_sub_cancel_left]
    rfl
  rw [shorter, List.append_assoc] at closes' ⊢
  rw [readTokens?, if_pos closes']
  exact congrArg (fun us => some (read us)) (body_append inside ends)

/-- `1 + ; var ) print x`, closed twice: the first closing token is the end. -/
theorem passes_partition_three_faults :
    let ts : List Token :=
      [⟨.number, "1", some (.number 1), 1⟩, ⟨.plus, "+", none, 1⟩, ⟨.semicolon, ";", none, 1⟩,
       ⟨.wordVar, "var", none, 2⟩, ⟨.rightParen, ")", none, 2⟩, ⟨.wordPrint, "print", none, 3⟩,
       ⟨.identifier, "x", some (.text "x"), 3⟩, Token.ending, ⟨.semicolon, ";", none, 4⟩, Token.ending]
    ts.getLast?.map Token.kind = some .endOfInput ∧
      ∃ reading stretches, readTokens? ts = some reading ∧ Partition ts reading 7 stretches := by
  intro ts
  have closes : ts.getLast?.map Token.kind = some .endOfInput := rfl
  refine ⟨closes, ?_⟩
  obtain ⟨reading, ending, stretches, reads, partition, -⟩ := passes_partition_tokens closes
  have early : ∀ place < 7, ¬ ∃ t ∈ ts[place]?, t.kind = .endOfInput := by decide
  have bound : ¬ 7 < ending := fun behind => partition.inFront 7 behind Token.ending rfl rfl
  obtain rfl : ending = 7 := by
    have := mt (early ending) (not_not_intro partition.atEnding)
    omega
  exact ⟨reading, stretches, reads, partition⟩

end LoxLang.Descent
