/-
Programs that talk over a byte stream, and two of them at the ends of one
connection.  A write may be taken in parts and a read may return any part of
what has come in, so the two can go on in many ways.  Programs that do not
depend on how their input is cut up all the same end in one way only, and one
run is enough to know it.
-/
import Shph.Library.Bytes

namespace Dialogue

open ByteCodec Relation

/-- A program writes bytes, reads at most `count` bytes, where nothing means
that the stream has ended, or makes a call that transfers nothing. -/
inductive Program (E A : Type) where
  | done (result : Except E A)
  | write (bytes : Bytes) (next : Program E A)
  | read (count : Nat) (next : Bytes → Program E A)
  | sync (next : Program E A)

variable {E A B F C : Type}

namespace Program

def bind : Program E A → (A → Program E B) → Program E B
  | done (.ok value), rest => rest value
  | done (.error error), _ => done (.error error)
  | write bytes next, rest => write bytes (next.bind rest)
  | read count next, rest => read count fun chunk => (next chunk).bind rest
  | sync next, rest => sync (next.bind rest)

instance : Monad (Program E) where
  pure value := done (.ok value)
  bind := bind

/-- A result that is there without any talking. -/
def ofExcept (result : Except E A) : Program E A := done result

def fail (error : E) : Program E A := done (.error error)

def send (bytes : Bytes) : Program E Unit := write bytes (pure ())

def call : Program E Unit := sync (pure ())

/-- Read exactly `count` bytes, or fail at the end of the stream. -/
def readExact (closed : E) (count : Nat) : Program E Bytes :=
  if count = 0 then done (.ok [])
  else
    .read count fun chunk =>
      if chunk = [] then done (.error closed)
      else
        (readExact closed (count - chunk.length)).bind fun rest =>
          done (.ok (chunk ++ rest))
termination_by count
decreasing_by
  rename_i hcount hchunk
  have hlength := List.length_pos_iff.mpr hchunk
  omega

theorem pure_bind (value : A) (rest : A → Program E B) :
    (pure value : Program E A) >>= rest = rest value := rfl

theorem ofExcept_ok_bind (value : A) (rest : A → Program E B) :
    ofExcept (.ok value) >>= rest = rest value := rfl

theorem call_bind (rest : Unit → Program E B) :
    (call : Program E Unit) >>= rest = sync (rest ()) := rfl

theorem bind_assoc (program : Program E A) (first : A → Program E B)
    (second : B → Program E C) :
    program >>= first >>= second =
      program >>= fun value => first value >>= second := by
  change (program.bind first).bind second =
    program.bind fun value => (first value).bind second
  induction program with
  | done result => cases result <;> rfl
  | write bytes next ih => simp only [bind, ih]
  | read count next ih => simp only [bind, ih]
  | sync next ih => simp only [bind, ih]

/-- A program that has failed drops its end of the connection. -/
def HungUp (program : Program E A) : Prop :=
  ∃ error, program = done (.error error)

/-- What the program makes of a read depends only on the bytes it gets in the
end, not on how they are cut up. -/
inductive Coherent : Program E A → Prop
  | done (result : Except E A) : Coherent (done result)
  | write (bytes : Bytes) {next : Program E A} (hnext : Coherent next) :
      Coherent (write bytes next)
  | read {count : Nat} {next : Bytes → Program E A}
      (hnext : ∀ chunk, Coherent (next chunk))
      (hsplit : ∀ chunk more : Bytes, chunk ≠ [] → more ≠ [] →
        chunk.length + more.length ≤ count →
        ∃ later, next chunk = .read (count - chunk.length) later ∧
          later more = next (chunk ++ more)) :
      Coherent (read count next)
  | sync {next : Program E A} (hnext : Coherent next) : Coherent (sync next)

theorem Coherent.bind {program : Program E A} {rest : A → Program E B}
    (hprogram : Coherent program) (hrest : ∀ value, Coherent (rest value)) :
    Coherent (program >>= rest) := by
  change Coherent (program.bind rest)
  induction hprogram with
  | done result =>
      cases result with
      | ok value => exact hrest value
      | error error => exact Coherent.done _
  | write bytes _ ih => exact Coherent.write bytes ih
  | sync _ ih => exact Coherent.sync ih
  | @read count next _ hsplit ih =>
      refine Coherent.read ih ?_
      intro chunk more hchunk hmore hlength
      obtain ⟨later, hlater, hjoin⟩ := hsplit chunk more hchunk hmore hlength
      refine ⟨fun piece => (later piece).bind rest, ?_, ?_⟩
      · simp only [hlater, Program.bind]
      · simp only [hjoin]

theorem coherent_ofExcept (result : Except E A) : Coherent (ofExcept result) :=
  .done result

theorem coherent_pure (value : A) : Coherent (pure value : Program E A) :=
  .done _

theorem coherent_fail (error : E) : Coherent (fail error : Program E A) :=
  .done _

theorem coherent_send (bytes : Bytes) :
    Coherent (send bytes : Program E Unit) := .write bytes (.done _)

theorem coherent_call : Coherent (call : Program E Unit) := .sync (.done _)

/-- Reading one byte at a time cannot be cut up at all. -/
theorem coherent_readOne {next : Bytes → Program E A}
    (hnext : ∀ chunk, Coherent (next chunk)) : Coherent (.read 1 next) := by
  apply Coherent.read hnext
  intro chunk more hchunk hmore hlength
  have hfirst := List.length_pos_iff.mpr hchunk
  have hsecond := List.length_pos_iff.mpr hmore
  omega

theorem readExact_zero (closed : E) : readExact closed 0 = pure [] := by
  rw [readExact, if_pos rfl]
  rfl

theorem readExact_pos (closed : E) {count : Nat} (hcount : count ≠ 0) :
    readExact closed count = .read count fun chunk =>
      if chunk = [] then done (.error closed)
      else
        (readExact closed (count - chunk.length)).bind fun rest =>
          done (.ok (chunk ++ rest)) := by
  rw [readExact, if_neg hcount]

theorem coherent_readExact (closed : E) (count : Nat) :
    Coherent (readExact closed count) := by
  induction count using Nat.strong_induction_on with
  | _ count ih =>
      by_cases hcount : count = 0
      · subst hcount
        rw [readExact_zero]
        exact Coherent.done _
      · rw [readExact_pos closed hcount]
        apply Coherent.read
        · intro chunk
          by_cases hchunk : chunk = []
          · rw [if_pos hchunk]
            exact Coherent.done _
          · rw [if_neg hchunk]
            have hlength := List.length_pos_iff.mpr hchunk
            exact Coherent.bind (ih (count - chunk.length) (by omega))
              fun rest => Coherent.done _
        · intro chunk more hchunk hmore hlength
          have hfirst := List.length_pos_iff.mpr hchunk
          have hsecond := List.length_pos_iff.mpr hmore
          have hrest : count - chunk.length ≠ 0 := by omega
          have happend : chunk ++ more ≠ [] := by simp [hchunk]
          have hcount' : count - chunk.length - more.length =
              count - (chunk ++ more).length := by
            rw [List.length_append]
            omega
          refine ⟨_, by rw [if_neg hchunk, readExact_pos closed hrest]; rfl,
            ?_⟩
          simp only [if_neg hmore, if_neg happend, hcount']
          change (readExact closed _ >>= fun rest => pure (more ++ rest)) >>=
            (fun rest => pure (chunk ++ rest)) =
              readExact closed _ >>= fun rest => pure (chunk ++ more ++ rest)
          rw [bind_assoc]
          simp only [pure_bind, List.append_assoc]

end Program

open Program

/-- One step of a program: what it leaves of its input, and what it adds to
its output.  The end of the stream is seen once the other end has hung up and
all that it wrote is read. -/
inductive Moves (hungUp : Prop) : Program E A → Bytes →
    Program E A → Bytes → Bytes → Prop
  | write {chunk : Bytes} (hchunk : chunk ≠ []) (rest : Bytes)
      (next : Program E A) (input : Bytes) :
      Moves hungUp (.write (chunk ++ rest) next) input (.write rest next) input
        chunk
  | written (next : Program E A) (input : Bytes) :
      Moves hungUp (.write [] next) input next input []
  | read {count : Nat} {chunk : Bytes} (next : Bytes → Program E A)
      (hchunk : chunk ≠ []) (hcount : chunk.length ≤ count) (input : Bytes) :
      Moves hungUp (.read count next) (chunk ++ input) (next chunk) input []
  | eof {count : Nat} (next : Bytes → Program E A) (hhungUp : hungUp) :
      Moves hungUp (.read count next) [] (next []) [] []
  | sync (next : Program E A) (input : Bytes) :
      Moves hungUp (.sync next) input next input []

namespace Moves

variable {hungUp : Prop} {program next : Program E A}
  {input rest output : Bytes}

theorem mono {other : Prop} (himp : hungUp → other)
    (hmoves : Moves hungUp program input next rest output) :
    Moves other program input next rest output := by
  cases hmoves with
  | write hchunk pending next _ => exact .write hchunk pending next _
  | written next _ => exact .written next _
  | read next hchunk hcount _ => exact .read next hchunk hcount _
  | eof next hhungUp => exact .eof next (himp hhungUp)
  | sync next _ => exact .sync next _

/-- While the other end is there, more input does not matter to a step. -/
theorem frame (hmoves : Moves False program input next rest output)
    (more : Bytes) :
    Moves False program (input ++ more) next (rest ++ more) output := by
  cases hmoves with
  | write hchunk pending next input => exact .write hchunk pending next _
  | written next input => exact .written next _
  | read next hchunk hcount input =>
      rw [List.append_assoc]
      exact .read next hchunk hcount _
  | eof next hhungUp => exact hhungUp.elim
  | sync next input => exact .sync next _

theorem bind (hmoves : Moves hungUp program input next rest output)
    (continuation : A → Program E B) :
    Moves hungUp (program >>= continuation) input (next >>= continuation) rest
      output := by
  cases hmoves with
  | write hchunk pending next _ => exact .write hchunk pending _ _
  | written next _ => exact .written _ _
  | read next hchunk hcount _ =>
      exact .read (fun chunk => (next chunk).bind continuation) hchunk hcount _
  | eof next hhungUp =>
      exact .eof (fun chunk => (next chunk).bind continuation) hhungUp
  | sync next _ => exact .sync _ _

theorem writeAll {bytes : Bytes} (hbytes : bytes ≠ [])
    (next : Program E A) (input : Bytes) :
    Moves hungUp (.write bytes next) input (.write [] next) input bytes := by
  have hmoves : Moves hungUp (.write (bytes ++ []) next) input
      (.write [] next) input bytes := .write hbytes [] next input
  rwa [List.append_nil] at hmoves

/-- A write goes on with what is left of it, or is over. -/
theorem of_write {bytes : Bytes} {following : Program E A}
    (hmoves : Moves hungUp (.write bytes following) input next rest output) :
    rest = input ∧
      ((∃ pending, bytes = output ++ pending ∧ output ≠ [] ∧
          next = .write pending following) ∨
        bytes = [] ∧ output = [] ∧ next = following) := by
  generalize hwhole : Program.write bytes following = whole at hmoves
  cases hmoves with
  | write hchunk pending _ _ =>
      obtain ⟨rfl, rfl⟩ := Program.write.inj hwhole
      exact ⟨rfl, Or.inl ⟨pending, rfl, hchunk, rfl⟩⟩
  | written _ _ =>
      obtain ⟨rfl, rfl⟩ := Program.write.inj hwhole
      exact ⟨rfl, Or.inr ⟨rfl, rfl, rfl⟩⟩
  | read _ _ _ _ => cases hwhole
  | eof _ _ => cases hwhole
  | sync _ _ => cases hwhole

/-- A step of a program that goes on as another one is its own, unless it has
returned. -/
theorem of_bind {program : Program E A} {rest : A → Program E B}
    {next : Program E B} {input left output : Bytes}
    (hmoves : Moves hungUp (program >>= rest) input next left output) :
    (∃ value, program = pure value) ∨
      ∃ middle, Moves hungUp program input middle left output ∧
        next = middle >>= rest := by
  cases program with
  | done result =>
      cases result with
      | ok value => exact Or.inl ⟨value, rfl⟩
      | error error => cases hmoves
  | write bytes following =>
      right
      change Moves hungUp (.write bytes (following.bind rest)) input next left
        output at hmoves
      obtain ⟨rfl, ⟨pending, rfl, hchunk, rfl⟩ | ⟨rfl, rfl, rfl⟩⟩ :=
        hmoves.of_write
      · exact ⟨_, .write hchunk pending following _, rfl⟩
      · exact ⟨_, .written following _, rfl⟩
  | read count following =>
      right
      change Moves hungUp (.read count fun chunk => (following chunk).bind rest)
        input next left output at hmoves
      cases hmoves with
      | read _ hchunk hcount _ =>
          exact ⟨_, .read following hchunk hcount _, rfl⟩
      | eof _ hhungUp => exact ⟨_, .eof following hhungUp, rfl⟩
  | sync following =>
      right
      change Moves hungUp (.sync (following.bind rest)) input next left output
        at hmoves
      cases hmoves
      exact ⟨_, .sync following _, rfl⟩

theorem not_hungUp (hmoves : Moves hungUp program input next rest output) :
    ¬ program.HungUp := by
  rintro ⟨error, rfl⟩
  cases hmoves

theorem coherent (hmoves : Moves hungUp program input next rest output)
    (hcoherent : program.Coherent) : next.Coherent := by
  cases hmoves with
  | write hchunk pending next input =>
      cases hcoherent with
      | write _ hnext => exact .write pending hnext
  | written next input =>
      cases hcoherent with
      | write _ hnext => exact hnext
  | read next hchunk hcount input =>
      cases hcoherent with
      | read hnext _ => exact hnext _
  | eof next hhungUp =>
      cases hcoherent with
      | read hnext _ => exact hnext _
  | sync next input =>
      cases hcoherent with
      | sync hnext => exact hnext

end Moves

/-- Of two beginnings of one string, one goes on to the other. -/
theorem append_split {left right leftRest rightRest : Bytes}
    (happend : left ++ leftRest = right ++ rightRest) :
    left = right ∧ leftRest = rightRest ∨
      (∃ more, more ≠ [] ∧ right = left ++ more ∧
        leftRest = more ++ rightRest) ∨
      ∃ more, more ≠ [] ∧ left = right ++ more ∧
        rightRest = more ++ leftRest := by
  rcases List.append_eq_append_iff.mp happend with
    ⟨more, hright, hrest⟩ | ⟨more, hleft, hrest⟩
  · by_cases hmore : more = []
    · subst hmore
      left
      simp_all
    · exact Or.inr (Or.inl ⟨more, hmore, hright, hrest⟩)
  · by_cases hmore : more = []
    · subst hmore
      left
      simp_all
    · exact Or.inr (Or.inr ⟨more, hmore, hleft, hrest⟩)

/-- One of two steps goes on to the other: it ends where the other one ended
and has written the same. -/
def Completes (hungUp : Prop) (program : Program E A) (rest output : Bytes)
    (other : Program E A) (otherRest otherOutput : Bytes) : Prop :=
  ∃ more, Moves hungUp program rest other otherRest more ∧
    output ++ more = otherOutput

theorem Moves.diamond {hungUp : Prop} {program left right : Program E A}
    {input leftRest rightRest leftOutput rightOutput : Bytes}
    (hcoherent : program.Coherent)
    (hleft : Moves hungUp program input left leftRest leftOutput)
    (hright : Moves hungUp program input right rightRest rightOutput) :
    left = right ∧ leftRest = rightRest ∧ leftOutput = rightOutput ∨
      Completes hungUp left leftRest leftOutput right rightRest rightOutput ∨
      Completes hungUp right rightRest rightOutput left leftRest
        leftOutput := by
  cases hcoherent with
  | done result => cases hleft
  | sync hnext =>
      cases hleft
      cases hright
      exact Or.inl ⟨rfl, rfl, rfl⟩
  | @write bytes next hnext =>
      obtain ⟨rfl, ⟨pending, rfl, hchunk, rfl⟩ | ⟨rfl, rfl, rfl⟩⟩ :=
        hleft.of_write
      · obtain ⟨rfl, ⟨otherPending, hbytes, hother, rfl⟩ | ⟨hempty, -, -⟩⟩ :=
          hright.of_write
        · rcases append_split hbytes with ⟨rfl, rfl⟩ |
            ⟨more, hmore, rfl, rfl⟩ | ⟨more, hmore, rfl, rfl⟩
          · exact Or.inl ⟨rfl, rfl, rfl⟩
          · exact Or.inr (Or.inl ⟨more, .write hmore _ _ _, rfl⟩)
          · exact Or.inr (Or.inr ⟨more, .write hmore _ _ _, rfl⟩)
        · exact absurd (List.append_eq_nil_iff.mp hempty).1 hchunk
      · obtain ⟨rfl, ⟨otherPending, hbytes, hother, -⟩ | ⟨-, rfl, rfl⟩⟩ :=
          hright.of_write
        · exact absurd (List.append_eq_nil_iff.mp hbytes.symm).1 hother
        · exact Or.inl ⟨rfl, rfl, rfl⟩
  | @read count next hnext hsplit =>
      cases hleft with
      | read _ hchunk hcount _ =>
          rename_i chunk
          generalize hinput : chunk ++ leftRest = input at hright
          cases hright with
          | read _ hother hotherCount _ =>
              rcases append_split hinput with ⟨rfl, rfl⟩ |
                ⟨more, hmore, rfl, rfl⟩ | ⟨more, hmore, rfl, rfl⟩
              · exact Or.inl ⟨rfl, rfl, rfl⟩
              · rw [List.length_append] at hotherCount
                obtain ⟨later, hlater, hjoin⟩ :=
                  hsplit _ more hchunk hmore hotherCount
                refine Or.inr (Or.inl ⟨[], ?_, rfl⟩)
                rw [hlater, ← hjoin]
                exact .read later hmore (by omega) _
              · rw [List.length_append] at hcount
                obtain ⟨later, hlater, hjoin⟩ :=
                  hsplit _ more hother hmore hcount
                refine Or.inr (Or.inr ⟨[], ?_, rfl⟩)
                rw [hlater, ← hjoin]
                exact .read later hmore (by omega) _
          | eof _ _ =>
              exact absurd (List.append_eq_nil_iff.mp hinput).1 hchunk
      | eof _ hhungUp =>
          generalize hinput : ([] : Bytes) = input at hright
          cases hright with
          | read _ hother hotherCount _ =>
              exact absurd (List.append_eq_nil_iff.mp hinput.symm).1 hother
          | eof _ _ => exact Or.inl ⟨rfl, rfl, rfl⟩

/-- Two programs at the ends of one connection, and what is under way to either
of them. -/
@[ext]
structure Link (E A F B : Type) where
  left : Program E A
  right : Program F B
  toRight : Bytes
  toLeft : Bytes

namespace Link

variable {link one two start state final : Link E A F B}

inductive Step : Link E A F B → Link E A F B → Prop
  | left {link : Link E A F B} {next : Program E A} {rest output : Bytes}
      (hmoves : Moves link.right.HungUp link.left link.toLeft next rest
        output) :
      Step link ⟨next, link.right, link.toRight ++ output, rest⟩
  | right {link : Link E A F B} {next : Program F B} {rest output : Bytes}
      (hmoves : Moves link.left.HungUp link.right link.toRight next rest
        output) :
      Step link ⟨link.left, next, rest, link.toLeft ++ output⟩

/-- Any number of steps, of either end, in any order. -/
abbrev Reaches : Link E A F B → Link E A F B → Prop := ReflTransGen Step

/-- Neither end can go on. -/
def Settled (link : Link E A F B) : Prop := ∀ next, ¬ Step link next

def Coherent (link : Link E A F B) : Prop :=
  link.left.Coherent ∧ link.right.Coherent

/-- The same connection, seen from the other end. -/
def swap (link : Link E A F B) : Link F B E A :=
  ⟨link.right, link.left, link.toLeft, link.toRight⟩

theorem Step.swap (hstep : Step one two) : Step one.swap two.swap := by
  cases hstep with
  | left hmoves => exact Step.right hmoves
  | right hmoves => exact Step.left hmoves

theorem Reaches.swap (hreaches : Reaches one two) :
    Reaches one.swap two.swap :=
  hreaches.lift Link.swap fun _ _ hstep => hstep.swap

theorem Step.coherent (hstep : Step one two) (hone : one.Coherent) :
    two.Coherent := by
  cases hstep with
  | left hmoves => exact ⟨hmoves.coherent hone.1, hone.2⟩
  | right hmoves => exact ⟨hone.1, hmoves.coherent hone.2⟩

theorem Reaches.coherent (hreaches : Reaches one two) (hone : one.Coherent) :
    two.Coherent := by
  induction hreaches with
  | refl => exact hone
  | tail _ hstep ih => exact hstep.coherent ih

/-- Two steps of the left end are one step, or one goes on to the other. -/
theorem left_diamond {left right : Program E A}
    {leftRest rightRest leftOutput rightOutput : Bytes}
    (hcoherent : link.Coherent)
    (hleft : Moves link.right.HungUp link.left link.toLeft left leftRest
      leftOutput)
    (hright : Moves link.right.HungUp link.left link.toLeft right rightRest
      rightOutput) :
    ∃ joined, ReflGen Step
        ⟨left, link.right, link.toRight ++ leftOutput, leftRest⟩ joined ∧
      ReflGen Step
        ⟨right, link.right, link.toRight ++ rightOutput, rightRest⟩ joined := by
  have hcomplete {left right : Program E A}
      {leftRest rightRest leftOutput rightOutput : Bytes}
      (hcompletes : Completes link.right.HungUp left leftRest leftOutput right
        rightRest rightOutput) :
      Step ⟨left, link.right, link.toRight ++ leftOutput, leftRest⟩
        ⟨right, link.right, link.toRight ++ rightOutput, rightRest⟩ := by
    obtain ⟨more, hmoves, rfl⟩ := hcompletes
    rw [← List.append_assoc]
    exact Step.left hmoves
  rcases Moves.diamond hcoherent.1 hleft hright with ⟨rfl, rfl, rfl⟩ | h | h
  · exact ⟨_, ReflGen.refl, ReflGen.refl⟩
  · exact ⟨_, ReflGen.single (hcomplete h), ReflGen.refl⟩
  · exact ⟨_, ReflGen.refl, ReflGen.single (hcomplete h)⟩

/-- Steps of the two ends do not get in each other's way. -/
theorem crossing {left : Program E A} {right : Program F B}
    {leftRest rightRest leftOutput rightOutput : Bytes}
    (hleft : Moves link.right.HungUp link.left link.toLeft left leftRest
      leftOutput)
    (hright : Moves link.left.HungUp link.right link.toRight right rightRest
      rightOutput) :
    ∃ joined, Step ⟨left, link.right, link.toRight ++ leftOutput, leftRest⟩
        joined ∧
      Step ⟨link.left, right, rightRest, link.toLeft ++ rightOutput⟩
        joined := by
  have hleftPresent : Moves False link.left link.toLeft left leftRest
      leftOutput := hleft.mono hright.not_hungUp
  have hrightPresent : Moves False link.right link.toRight right rightRest
      rightOutput := hright.mono hleft.not_hungUp
  refine ⟨⟨left, right, rightRest ++ leftOutput, leftRest ++ rightOutput⟩,
    ?_, ?_⟩
  · exact Step.right ((hrightPresent.frame leftOutput).mono False.elim)
  · exact Step.left ((hleftPresent.frame rightOutput).mono False.elim)

theorem Step.diamond (hcoherent : link.Coherent) (hone : Step link one)
    (htwo : Step link two) :
    ∃ joined, ReflGen Step one joined ∧ ReflGen Step two joined := by
  cases hone with
  | left hfirst =>
      cases htwo with
      | left hsecond => exact left_diamond hcoherent hfirst hsecond
      | right hsecond =>
          obtain ⟨joined, hleft, hright⟩ := crossing hfirst hsecond
          exact ⟨joined, ReflGen.single hleft, ReflGen.single hright⟩
  | right hfirst =>
      cases htwo with
      | left hsecond =>
          obtain ⟨joined, hleft, hright⟩ := crossing hsecond hfirst
          exact ⟨joined, ReflGen.single hright, ReflGen.single hleft⟩
      | right hsecond =>
          have hswap : link.swap.Coherent := ⟨hcoherent.2, hcoherent.1⟩
          obtain ⟨joined, hleft, hright⟩ :=
            left_diamond hswap hfirst hsecond
          refine ⟨joined.swap, ?_, ?_⟩
          · cases hleft with
            | refl => exact ReflGen.refl
            | single hstep => exact ReflGen.single hstep.swap
          · cases hright with
            | refl => exact ReflGen.refl
            | single hstep => exact ReflGen.single hstep.swap

/-- Runs from one state can be brought together again. -/
theorem Reaches.join (hcoherent : start.Coherent) (hone : Reaches start one)
    (htwo : Reaches start two) : Join Reaches one two := by
  let coherentStep : Link E A F B → Link E A F B → Prop :=
    fun link next => link.Coherent ∧ Step link next
  have hlift {next : Link E A F B} (hreaches : Reaches start next) :
      ReflTransGen coherentStep start next := by
    induction hreaches with
    | refl => exact ReflTransGen.refl
    | tail hbefore hstep ih =>
        exact ih.tail ⟨Reaches.coherent hbefore hcoherent, hstep⟩
  have hforget {link next : Link E A F B}
      (hreaches : ReflTransGen coherentStep link next) : Reaches link next :=
    hreaches.lift id fun _ _ hstep => hstep.2
  have hjoin : Join (ReflTransGen coherentStep) one two := by
    apply church_rosser ?_ (hlift hone) (hlift htwo)
    rintro link left right ⟨hlink, hleft⟩ ⟨_, hright⟩
    obtain ⟨joined, hfirst, hsecond⟩ := Step.diamond hlink hleft hright
    refine ⟨joined, ?_, ?_⟩
    · cases hfirst with
      | refl => exact ReflGen.refl
      | single hstep => exact ReflGen.single ⟨hleft.coherent hlink, hstep⟩
    · cases hsecond with
      | refl => exact ReflTransGen.refl
      | single hstep => exact ReflTransGen.single ⟨hright.coherent hlink, hstep⟩
  obtain ⟨joined, hleft, hright⟩ := hjoin
  exact ⟨joined, hforget hleft, hforget hright⟩

/-- An end that reads on after the other one has dropped the connection
fails. -/
theorem reaches_closed {closed : F} {count : Nat} (hcount : count ≠ 0)
    (error : E) (rest : Bytes → Program F B) (toLeft : Bytes) :
    Reaches ⟨(.done (.error error) : Program E A),
        readExact closed count >>= rest, [], toLeft⟩
      ⟨.done (.error error), .done (.error closed), [], toLeft⟩ := by
  obtain ⟨next, hread, hend⟩ : ∃ next : Bytes → Program F B,
      readExact closed count >>= rest = .read count next ∧
        next [] = .done (.error closed) := by
    rw [readExact_pos closed hcount]
    exact ⟨_, rfl, rfl⟩
  have hstep : Step
      ⟨(.done (.error error) : Program E A), .read count next, [], toLeft⟩
      ⟨.done (.error error), next [], [], toLeft ++ []⟩ :=
    .right (.eof next ⟨error, rfl⟩)
  rw [hend, List.append_nil] at hstep
  rw [hread]
  exact ReflTransGen.single hstep

theorem settled_of_done (left : Except E A) (right : Except F B)
    (toRight toLeft : Bytes) :
    (⟨.done left, .done right, toRight, toLeft⟩ : Link E A F B).Settled := by
  intro next hstep
  cases hstep with
  | left hmoves => cases hmoves
  | right hmoves => cases hmoves

theorem Settled.eq_of_reaches (hsettled : final.Settled)
    (hreaches : Reaches final state) : state = final := by
  rcases ReflTransGen.cases_head hreaches with heq | ⟨next, hstep, _⟩
  · exact heq.symm
  · exact absurd hstep (hsettled next)

/-- One run to a settled state shows where all runs go: from every state they
reach, they can still go there, and nowhere else do they settle. -/
theorem Reaches.settles (hcoherent : start.Coherent)
    (hfinal : Reaches start final) (hsettled : final.Settled)
    (hstate : Reaches start state) :
    Reaches state final ∧ (state.Settled → state = final) := by
  obtain ⟨joined, hjoined, hother⟩ := Reaches.join hcoherent hstate hfinal
  obtain rfl := hsettled.eq_of_reaches hother
  exact ⟨hjoined, fun hstop => (hstop.eq_of_reaches hjoined).symm⟩

end Link

/-- The program after one step of its own. -/
def Continues (next program : Program E A) : Prop :=
  ∃ hungUp input rest output, Moves hungUp program input next rest output

theorem continues_wellFounded :
    WellFounded (Continues : Program E A → Program E A → Prop) := by
  refine ⟨fun program => ?_⟩
  induction program with
  | done result =>
      refine Acc.intro _ ?_
      rintro next ⟨_, _, _, _, hmoves⟩
      cases hmoves
  | write bytes following ih =>
      induction hlength : bytes.length using Nat.strong_induction_on
        generalizing bytes with
      | _ length shorter =>
          refine Acc.intro _ ?_
          rintro next ⟨_, _, _, _, hmoves⟩
          cases hmoves with
          | write hchunk pending _ _ =>
              have hpos := List.length_pos_iff.mpr hchunk
              rw [List.length_append] at hlength
              exact shorter pending.length (by omega) pending rfl
          | written _ _ => exact ih
  | read count following ih =>
      refine Acc.intro _ ?_
      rintro next ⟨_, _, _, _, hmoves⟩
      cases hmoves with
      | read _ _ _ _ => exact ih _
      | eof _ _ => exact ih _
  | sync following ih =>
      refine Acc.intro _ ?_
      rintro next ⟨_, _, _, _, hmoves⟩
      cases hmoves
      exact ih

namespace Link

section Runs

variable {left : Program E A} {right : Program F B} {toRight toLeft : Bytes}
  {link other : Link E A F B}

/-- The left end goes on with another program when it has its result. -/
def bindLeft (link : Link E A F B) (rest : A → Program E C) : Link E C F B :=
  ⟨link.left >>= rest, link.right, link.toRight, link.toLeft⟩

theorem Step.bindLeft (hstep : Step link other) (rest : A → Program E C) :
    Step (link.bindLeft rest) (other.bindLeft rest) := by
  cases hstep with
  | left hmoves => exact Step.left (hmoves.bind rest)
  | right hmoves =>
      apply Step.right
      apply hmoves.mono
      rintro ⟨error, herror⟩
      exact ⟨error, by rw [Link.bindLeft, herror]; rfl⟩

/-- What two programs do together they also do when the left one goes on. -/
theorem Reaches.bindLeft (hreaches : Reaches link other)
    (rest : A → Program E C) :
    Reaches (link.bindLeft rest) (other.bindLeft rest) :=
  hreaches.lift (fun link => link.bindLeft rest)
    fun _ _ hstep => hstep.bindLeft rest

end Runs

end Link

/-- By itself a program reads all of `input`, writes `output` and goes on as
`next`, whatever else is under way. -/
def Talks (program : Program E A) (input output : Bytes)
    (next : Program E A) : Prop :=
  ∀ (F B : Type) (other : Program F B) (toOther more : Bytes),
    Link.Reaches ⟨program, other, toOther, input ++ more⟩
      ⟨next, other, toOther ++ output, more⟩

namespace Talks

variable {program middle next : Program E A}
  {input output input' output' : Bytes} {value : A}

theorem refl (program : Program E A) : Talks program [] [] program := by
  intro F B other toOther more
  rw [List.append_nil]
  exact ReflTransGen.refl

theorem trans (hfirst : Talks program input output middle)
    (hsecond : Talks middle input' output' next) :
    Talks program (input ++ input') (output ++ output') next := by
  intro F B other toOther more
  rw [List.append_assoc, ← List.append_assoc toOther]
  exact (hfirst F B other toOther (input' ++ more)).trans
    (hsecond F B other (toOther ++ output) more)

theorem bind (htalks : Talks program input output middle)
    (rest : A → Program E C) :
    Talks (program >>= rest) input output (middle >>= rest) := by
  intro F B other toOther more
  exact (htalks F B other toOther more).bindLeft rest

theorem cast (htalks : Talks program input output next)
    (hinput : input = input') (houtput : output = output') :
    Talks program input' output' next := by
  subst hinput houtput
  exact htalks

/-- A part that returns, and then what comes after it. -/
theorem andThen {rest : A → Program E C} {next : Program E C}
    (hfirst : Talks program input output (pure value))
    (hsecond : Talks (rest value) input' output' next) :
    Talks (program >>= rest) (input ++ input') (output ++ output') next :=
  (hfirst.bind rest).trans hsecond

/-- At the right end of a connection. -/
theorem right {other : Program F B} {toOther more : Bytes}
    (htalks : Talks program input output next) :
    Link.Reaches ⟨other, program, input ++ more, toOther⟩
      ⟨other, next, more, toOther ++ output⟩ :=
  (htalks F B other toOther more).swap

/-- A turn takes all that is under way. -/
theorem leftTurn {other : Program F B}
    (htalks : Talks program input output next) :
    Link.Reaches ⟨program, other, [], input⟩ ⟨next, other, output, []⟩ := by
  have hreaches := htalks F B other [] []
  rwa [List.append_nil] at hreaches

theorem rightTurn {other : Program F B}
    (htalks : Talks program input output next) :
    Link.Reaches ⟨other, program, input, []⟩ ⟨other, next, [], output⟩ :=
  htalks.leftTurn.swap

theorem sync (next : Program E A) : Talks (.sync next) [] [] next := by
  intro F B other toOther more
  exact ReflTransGen.single (Link.Step.left (.sync next more))

theorem write (bytes : Bytes) (next : Program E A) :
    Talks (.write bytes next) [] bytes next := by
  intro F B other toOther more
  have hwritten {toOther : Bytes} :
      Link.Reaches ⟨.write [] next, other, toOther, more⟩
        ⟨next, other, toOther, more⟩ := by
    have hstep : Link.Step ⟨.write [] next, other, toOther, more⟩
        ⟨next, other, toOther ++ [], more⟩ := .left (.written next more)
    rw [List.append_nil] at hstep
    exact ReflTransGen.single hstep
  by_cases hbytes : bytes = []
  · subst hbytes
    rw [List.append_nil]
    exact hwritten
  · exact ReflTransGen.head (Link.Step.left (.writeAll hbytes next more))
      hwritten

theorem read {count : Nat} {chunk : Bytes} (next : Bytes → Program E A)
    (hchunk : chunk ≠ []) (hcount : chunk.length ≤ count) :
    Talks (.read count next) chunk [] (next chunk) := by
  intro F B other toOther more
  exact ReflTransGen.single (Link.Step.left (.read next hchunk hcount more))

theorem ofExcept {result : Except E A} (hresult : result = .ok value) :
    Talks (Program.ofExcept result) [] [] (pure value) := by
  subst hresult
  exact refl _

theorem send (bytes : Bytes) :
    Talks (Program.send bytes : Program E Unit) [] bytes (pure ()) :=
  write bytes _

theorem call : Talks (Program.call : Program E Unit) [] [] (pure ()) :=
  sync _

theorem readExact (closed : E) {bytes : Bytes} {count : Nat}
    (hcount : bytes.length = count) :
    Talks (Program.readExact closed count) bytes [] (pure bytes) := by
  subst hcount
  by_cases hbytes : bytes = []
  · subst hbytes
    rw [List.length_nil, readExact_zero]
    exact refl _
  · have hlength : bytes.length ≠ 0 := fun hzero =>
      hbytes (List.length_eq_zero_iff.mp hzero)
    rw [readExact_pos closed hlength]
    have htalks := read (fun chunk => if chunk = [] then done (.error closed)
      else (Program.readExact closed (bytes.length - chunk.length)).bind
        fun rest => done (.ok (chunk ++ rest))) hbytes (Nat.le_refl _)
    rw [if_neg hbytes, Nat.sub_self, readExact_zero] at htalks
    have hvalue : (pure [] : Program E Bytes).bind (fun rest =>
        done (.ok (bytes ++ rest))) = pure bytes := by
      change done (.ok (bytes ++ [])) = _
      rw [List.append_nil]
      rfl
    rwa [hvalue] at htalks

end Talks

end Dialogue
