/-
What a program that talks over a byte stream keeps to, whatever the other end
does and wherever the stream breaks.  A contract says what holds of the bytes
read and written so far at every point, and what holds of them once the program
has returned; the contract of a program is put together from those of its
parts.
-/
import Shph.Library.Dialogue

namespace Dialogue

open ByteCodec Program Relation

variable {E A B F C : Type}

/-- What has not returned does not return by going on. -/
theorem Program.bind_ne_pure {program : Program E A} {rest : A → Program E B}
    (hopen : ∀ value, program ≠ pure value) (value : B) :
    program >>= rest ≠ pure value := by
  intro hvalue
  cases program with
  | done result =>
      cases result with
      | ok first => exact hopen first rfl
      | error error => cases hvalue
  | write bytes next => cases hvalue
  | read count next => cases hvalue
  | sync next => cases hvalue

/-- The program waits for the stream to take or give something, or for a call
to return. -/
def Program.Pending (program : Program E A) : Prop :=
  ∀ result, program ≠ done result

/-- A program goes on, or a fault ends it. -/
def Attempts (next program : Program E A) : Prop :=
  Continues next program ∨
    program.Pending ∧ ∃ error, next = .done (.error error)

theorem attempts_wellFounded :
    WellFounded (Attempts : Program E A → Program E A → Prop) := by
  have hdone (result : Except E A) : Acc Attempts (Program.done result) := by
    refine Acc.intro _ ?_
    rintro next (⟨_, _, _, _, hmoves⟩ | ⟨hpending, _⟩)
    · cases hmoves
    · exact absurd rfl (hpending result)
  refine ⟨fun program => ?_⟩
  induction program using continues_wellFounded.induction with
  | _ program ih =>
      refine Acc.intro _ ?_
      rintro next (hcontinues | ⟨_, error, rfl⟩)
      · exact ih next hcontinues
      · exact hdone _

/-- Where a program can come to against an end that may do anything, over a
stream that may fail at every call: what it has read by then, and what it has
written. -/
inductive Faces : Program E A → Bytes → Bytes → Program E A → Prop
  | stop (program : Program E A) : Faces program [] [] program
  | fault {program : Program E A} (hpending : program.Pending) (error : E) :
      Faces program [] [] (done (.error error))
  | move {program middle next : Program E A}
      {chunk output input' output' : Bytes}
      (hmoves : Moves True program chunk middle [] output)
      (hrest : Faces middle input' output' next) :
      Faces program (chunk ++ input') (output ++ output') next

namespace Faces

variable {program next : Program E A} {input output : Bytes}

theorem trans {middle : Program E A} {input' output' : Bytes}
    (hfirst : Faces program input output middle)
    (hsecond : Faces middle input' output' next) :
    Faces program (input ++ input') (output ++ output') next := by
  induction hfirst with
  | stop _ => exact hsecond
  | fault hpending error =>
      cases hsecond with
      | stop _ => exact fault hpending error
      | fault hdone _ => exact absurd rfl (hdone _)
      | move hmoves _ => cases hmoves
  | move hmoves _ ih =>
      rw [List.append_assoc, List.append_assoc]
      exact move hmoves (ih hsecond)

theorem of_done {result : Except E A}
    (hfaces : Faces (done result) input output next) :
    input = [] ∧ output = [] ∧ next = done result := by
  cases hfaces with
  | stop _ => exact ⟨rfl, rfl, rfl⟩
  | fault hpending _ => exact absurd rfl (hpending result)
  | move hmoves _ => cases hmoves

/-- What a program does before it goes on as another one. -/
theorem of_bind {program : Program E A} {rest : A → Program E B}
    {next : Program E B}
    (hfaces : Faces (program >>= rest) input output next) :
    (∃ middle, Faces program input output middle ∧
        (∀ value, middle ≠ pure value) ∧ next = middle >>= rest) ∨
      ∃ value before after sent later, Faces program before sent (pure value) ∧
        Faces (rest value) after later next ∧ input = before ++ after ∧
          output = sent ++ later := by
  generalize hwhole : program >>= rest = whole at hfaces
  have hreturned {value : A} {input output : Bytes}
      (hrest : Faces (rest value) input output next) :
      ∃ result before after sent later,
        Faces (pure value : Program E A) before sent (pure result) ∧
          Faces (rest result) after later next ∧ input = before ++ after ∧
            output = sent ++ later :=
    ⟨value, [], input, [], output, stop _, hrest, rfl, rfl⟩
  induction hfaces generalizing program with
  | stop other =>
      subst hwhole
      by_cases hdone : ∃ value, program = pure value
      · obtain ⟨value, rfl⟩ := hdone
        exact Or.inr (hreturned (stop _))
      · exact Or.inl ⟨program, stop _, fun value hvalue =>
          hdone ⟨value, hvalue⟩, rfl⟩
  | fault hpending error =>
      subst hwhole
      by_cases hdone : ∃ result, program = done result
      · obtain ⟨result | result, rfl⟩ := hdone
        · exact absurd rfl (hpending (.error result))
        · exact Or.inr (hreturned (fault hpending error))
      · refine Or.inl ⟨done (.error error), fault (fun result hresult =>
          hdone ⟨result, hresult⟩) error, ?_, rfl⟩
        intro value hvalue
        cases hvalue
  | @move start middle _ chunk sent input' output' hmoves hrest ih =>
      subst hwhole
      rcases hmoves.of_bind with ⟨value, rfl⟩ | ⟨following, hown, rfl⟩
      · exact Or.inr (hreturned (move hmoves hrest))
      · rcases ih rfl hreturned with ⟨last, hlast, hopen, rfl⟩ |
          ⟨value, before, after, written, later, hfirst, hsecond, rfl, rfl⟩
        · exact Or.inl ⟨last, move hown hlast, hopen, rfl⟩
        · refine Or.inr ⟨value, _, after, _, later, move hown hfirst, hsecond,
            ?_, ?_⟩
          · rw [List.append_assoc]
          · rw [List.append_assoc]

/-- It is still there, or it has failed. -/
def Stuck (program next : Program E A) (input output : Bytes) : Prop :=
  input = [] ∧ output = [] ∧
    (next = program ∨ ∃ error, next = done (.error error))

theorem of_sync {following : Program E A}
    (hfaces : Faces (.sync following) input output next) :
    Stuck (.sync following) next input output ∨
      Faces following input output next := by
  cases hfaces with
  | stop _ => exact Or.inl ⟨rfl, rfl, Or.inl rfl⟩
  | fault _ error => exact Or.inl ⟨rfl, rfl, Or.inr ⟨error, rfl⟩⟩
  | move hmoves hrest =>
      cases hmoves
      exact Or.inr hrest

theorem of_read {count : Nat} {following : Bytes → Program E A}
    (hfaces : Faces (.read count following) input output next) :
    Stuck (.read count following) next input output ∨
      ∃ chunk rest, chunk.length ≤ count ∧ input = chunk ++ rest ∧
        Faces (following chunk) rest output next := by
  cases hfaces with
  | stop _ => exact Or.inl ⟨rfl, rfl, Or.inl rfl⟩
  | fault _ error => exact Or.inl ⟨rfl, rfl, Or.inr ⟨error, rfl⟩⟩
  | move hmoves hrest =>
      right
      generalize hinput : ([] : Bytes) = left at hmoves
      cases hmoves with
      | read _ hchunk hcount _ =>
          subst hinput
          rw [List.append_nil]
          exact ⟨_, _, hcount, rfl, hrest⟩
      | eof _ _ => exact ⟨[], _, Nat.zero_le _, rfl, hrest⟩

end Faces

/-- A step takes the bytes it reads from the front of what is under way. -/
theorem Moves.taken {hungUp : Prop} {program next : Program E A}
    {input rest output : Bytes}
    (hmoves : Moves hungUp program input next rest output) :
    ∃ chunk, input = chunk ++ rest ∧
      Faces program chunk output next := by
  have hsingle {program next : Program E A} {chunk output : Bytes}
      (hmoves : Moves True program chunk next [] output) :
      Faces program chunk output next := by
    have hfaces := Faces.move hmoves (Faces.stop next)
    rwa [List.append_nil, List.append_nil] at hfaces
  cases hmoves with
  | write hchunk pending next _ =>
      exact ⟨[], rfl, hsingle (.write hchunk pending next [])⟩
  | written next _ => exact ⟨[], rfl, hsingle (.written next [])⟩
  | @read count chunk next hchunk hcount _ =>
      refine ⟨chunk, rfl, hsingle ?_⟩
      have hread : Moves True (.read count next) (chunk ++ []) (next chunk) []
          [] := .read next hchunk hcount []
      rwa [List.append_nil] at hread
  | eof next _ => exact ⟨[], rfl, hsingle (.eof next trivial)⟩
  | sync next _ => exact ⟨[], rfl, hsingle (.sync next [])⟩

/-- However two programs have come to where they are, either has read what the
other has written, in its order, but for what is still under way. -/
theorem Link.Reaches.faces {start link : Link E A F B}
    (hreaches : Link.Reaches start link) :
    ∃ leftRead leftWrote rightRead rightWrote,
      Faces start.left leftRead leftWrote link.left ∧
        Faces start.right rightRead rightWrote link.right ∧
        start.toLeft ++ rightWrote = leftRead ++ link.toLeft ∧
        start.toRight ++ leftWrote = rightRead ++ link.toRight := by
  induction hreaches with
  | refl => exact ⟨[], [], [], [], .stop _, .stop _, by simp, by simp⟩
  | tail _ hstep ih =>
      obtain ⟨leftRead, leftWrote, rightRead, rightWrote, hleft, hright,
        htoLeft, htoRight⟩ := ih
      cases hstep with
      | left hmoves =>
          obtain ⟨chunk, hinput, hfaces⟩ := hmoves.taken
          refine ⟨_, _, _, _, hleft.trans hfaces, hright, ?_, ?_⟩
          · rw [htoLeft, hinput, List.append_assoc]
          · rw [← List.append_assoc, htoRight, List.append_assoc]
      | right hmoves =>
          obtain ⟨chunk, hinput, hfaces⟩ := hmoves.taken
          refine ⟨_, _, _, _, hleft, hright.trans hfaces, ?_, ?_⟩
          · rw [← List.append_assoc, htoLeft, List.append_assoc]
          · rw [htoRight, hinput, List.append_assoc]

/-- What a program does by itself it can do against any other end. -/
theorem Talks.faces {program next : Program E A} {input output : Bytes}
    (htalks : Talks program input output next) :
    Faces program input output next := by
  have hreaches := @leftTurn E A Unit Unit program next input output
    (done (.ok ())) htalks
  obtain ⟨read, wrote, _, _, hfaces, hother, htoLeft, htoRight⟩ :=
    hreaches.faces
  obtain ⟨rfl, rfl, _⟩ := hother.of_done
  rw [List.append_nil, List.append_nil] at htoLeft
  have hread : input = read := htoLeft
  have hwrote : output = wrote := htoRight.symm
  rw [hread, hwrote]
  exact hfaces

/-- Against any other end, `always` holds of what has been read and written at
every point, and `returns` when the program has returned. -/
def Keeps (program : Program E A) (always : Bytes → Bytes → Prop)
    (returns : A → Bytes → Bytes → Prop) : Prop :=
  ∀ (input output : Bytes) (next : Program E A),
    Faces program input output next →
      always input output ∧
        ∀ value, next = pure value → returns value input output

namespace Keeps

variable {program following : Program E A}
  {always : Bytes → Bytes → Prop} {returns : A → Bytes → Bytes → Prop}

theorem mono {weaker : Bytes → Bytes → Prop}
    {returns' : A → Bytes → Bytes → Prop}
    (hkeeps : Keeps program always returns)
    (halways : ∀ input output, always input output → weaker input output)
    (hreturns : ∀ value input output, returns value input output →
      returns' value input output) :
    Keeps program weaker returns' := by
  intro input output next hfaces
  obtain ⟨hstays, hvalue⟩ := hkeeps _ _ _ hfaces
  exact ⟨halways _ _ hstays, fun value hnext =>
    hreturns _ _ _ (hvalue value hnext)⟩

theorem start (hkeeps : Keeps program always returns) : always [] [] :=
  (hkeeps _ _ _ (Faces.stop program)).1

theorem ofExcept {result : Except E A} (hstart : always [] [])
    (hreturns : ∀ value, result = .ok value → returns value [] []) :
    Keeps (Program.ofExcept result) always returns := by
  intro input output next hfaces
  obtain ⟨rfl, rfl, rfl⟩ := hfaces.of_done
  refine ⟨hstart, fun value hvalue => hreturns value ?_⟩
  exact Program.done.inj hvalue

theorem pure {value : A} (hstart : always [] [])
    (hreturns : returns value [] []) :
    Keeps (Pure.pure value : Program E A) always returns := by
  apply ofExcept hstart
  intro other hother
  rwa [← Except.ok.inj hother]

theorem fail {error : E} (hstart : always [] []) :
    Keeps (Program.fail error : Program E A) always returns :=
  ofExcept hstart fun _ hvalue => nomatch hvalue

/-- What has not moved has not returned. -/
theorem of_stuck {next : Program E A} {input output : Bytes}
    (hpending : program.Pending) (hstart : always [] [])
    (hstuck : Faces.Stuck program next input output) :
    always input output ∧
      ∀ value, next = Pure.pure value → returns value input output := by
  obtain ⟨rfl, rfl, hnext⟩ := hstuck
  refine ⟨hstart, fun value hvalue => ?_⟩
  rcases hnext with rfl | ⟨error, rfl⟩
  · exact absurd hvalue (hpending _)
  · cases hvalue

theorem sync (hkeeps : Keeps following always returns) :
    Keeps (.sync following) always returns := by
  intro input output next hfaces
  rcases hfaces.of_sync with hstuck | hrest
  · exact of_stuck (by rintro _ ⟨⟩) hkeeps.start hstuck
  · exact hkeeps _ _ _ hrest

theorem read {count : Nat} {next : Bytes → Program E A} (hstart : always [] [])
    (hnext : ∀ chunk, chunk.length ≤ count →
      Keeps (next chunk) (fun input output => always (chunk ++ input) output)
        fun value input output => returns value (chunk ++ input) output) :
    Keeps (.read count next) always returns := by
  intro input output last hfaces
  rcases hfaces.of_read with hstuck | ⟨chunk, rest, hcount, rfl, hrest⟩
  · exact of_stuck (by rintro _ ⟨⟩) hstart hstuck
  · exact hnext chunk hcount _ _ _ hrest

theorem write {bytes : Bytes}
    (hsent : ∀ sent, sent <+: bytes → always [] sent)
    (hkeeps : Keeps following
      (fun input output => always input (bytes ++ output))
      fun value input output => returns value input (bytes ++ output)) :
    Keeps (.write bytes following) always returns := by
  intro input output next hfaces
  generalize hstart : Program.write bytes following = start at hfaces
  induction hfaces generalizing bytes always returns with
  | stop _ =>
      subst hstart
      refine ⟨hsent [] List.nil_prefix, fun value hvalue => ?_⟩
      cases hvalue
  | fault _ error =>
      refine ⟨hsent [] List.nil_prefix, fun value hvalue => ?_⟩
      cases hvalue
  | @move _ middle last chunk sent input' output' hmoves hrest ih =>
      subst hstart
      obtain ⟨rfl, ⟨pending, rfl, -, rfl⟩ | ⟨rfl, rfl, rfl⟩⟩ :=
        hmoves.of_write
      · refine @ih (fun input output => always input (sent ++ output))
          (fun value input output => returns value input (sent ++ output))
          pending ?_ ?_ rfl
        · intro more hmore
          exact hsent _ ((List.prefix_append_right_inj _).mpr hmore)
        · simp only [List.append_assoc] at hkeeps
          exact hkeeps
      · exact hkeeps _ _ _ hrest

theorem bind {rest : A → Program E B} {during : Bytes → Bytes → Prop}
    {between : A → Bytes → Bytes → Prop}
    {returns : B → Bytes → Bytes → Prop}
    (hprogram : Keeps program during between)
    (hduring : ∀ input output, during input output → always input output)
    (hrest : ∀ value before sent, between value before sent →
      Keeps (rest value)
        (fun input output => always (before ++ input) (sent ++ output))
        fun result input output =>
          returns result (before ++ input) (sent ++ output)) :
    Keeps (program >>= rest) always returns := by
  intro input output next hfaces
  rcases hfaces.of_bind with ⟨middle, hmiddle, hopen, rfl⟩ |
    ⟨value, before, after, sent, later, hfirst, hsecond, rfl, rfl⟩
  · refine ⟨hduring _ _ (hprogram _ _ _ hmiddle).1, fun value hvalue => ?_⟩
    exact absurd hvalue (bind_ne_pure hopen value)
  · exact hrest value before sent ((hprogram _ _ _ hfirst).2 value rfl) _ _ _
      hsecond

/-- A result that is there already, and what comes after it. -/
theorem ofExcept_bind {result : Except E A} {rest : A → Program E B}
    {returns : B → Bytes → Bytes → Prop} (hstart : always [] [])
    (hrest : ∀ value, result = .ok value → Keeps (rest value) always returns) :
    Keeps (Program.ofExcept result >>= rest) always returns := by
  cases result with
  | ok value => exact hrest value rfl
  | error error => exact fail hstart

end Keeps

/-- Reading exactly `count` bytes takes no more, writes nothing, and returns
what it took. -/
theorem Keeps.readExact (closed : E) (count : Nat) :
    Keeps (Program.readExact closed count)
      (fun input output => input.length ≤ count ∧ output = [])
      fun value input output =>
        value = input ∧ input.length = count ∧ output = [] := by
  induction count using Nat.strong_induction_on with
  | _ count ih =>
      by_cases hcount : count = 0
      · subst hcount
        rw [readExact_zero]
        exact Keeps.pure ⟨Nat.le_refl _, rfl⟩ ⟨rfl, rfl, rfl⟩
      · rw [readExact_pos closed hcount]
        apply Keeps.read ⟨Nat.zero_le _, rfl⟩
        intro chunk hlength
        by_cases hchunk : chunk = []
        · rw [if_pos hchunk]
          exact Keeps.fail ⟨by simpa using hlength, rfl⟩
        · rw [if_neg hchunk]
          have hpos := List.length_pos_iff.mpr hchunk
          apply Keeps.bind (ih (count - chunk.length) (by omega))
          · rintro input output ⟨hinput, rfl⟩
            rw [List.length_append]
            exact ⟨by omega, rfl⟩
          · rintro value input output ⟨rfl, hinput, rfl⟩
            have htotal : (chunk ++ value).length = count := by
              rw [List.length_append]
              omega
            apply Keeps.pure
            · rw [List.append_nil]
              exact ⟨htotal.le, rfl⟩
            · rw [List.append_nil]
              exact ⟨rfl, htotal, rfl⟩

/-- The whole conduct of a program: what it keeps to, that it does return with
all that its contract lets it return with, and that nothing depends on how its
input is cut up. -/
structure Conducts (program : Program E A) (always : Bytes → Bytes → Prop)
    (returns : A → Bytes → Bytes → Prop) : Prop where
  keeps : Keeps program always returns
  talks : ∀ value input output, returns value input output →
    Talks program input output (pure value)
  coherent : program.Coherent

namespace Conducts

variable {program : Program E A} {always : Bytes → Bytes → Prop}
  {returns : A → Bytes → Bytes → Prop}

theorem faces_iff (hconducts : Conducts program always returns) {value : A}
    {input output : Bytes} :
    Faces program input output (Pure.pure value) ↔
      returns value input output :=
  ⟨fun hfaces => (hconducts.keeps _ _ _ hfaces).2 value rfl,
    fun hreturns => (hconducts.talks _ _ _ hreturns).faces⟩

theorem always_of_returns (hconducts : Conducts program always returns)
    {value : A} {input output : Bytes}
    (hreturns : returns value input output) : always input output :=
  (hconducts.keeps _ _ _ (hconducts.faces_iff.mpr hreturns)).1

theorem mono {weaker : Bytes → Bytes → Prop}
    {returns' : A → Bytes → Bytes → Prop}
    (hconducts : Conducts program always returns)
    (halways : ∀ input output, always input output → weaker input output)
    (hreturns : ∀ value input output,
      returns' value input output ↔ returns value input output) :
    Conducts program weaker returns' :=
  ⟨hconducts.keeps.mono halways fun _ _ _ => (hreturns _ _ _).mpr,
    fun _ _ _ hvalue => hconducts.talks _ _ _ ((hreturns _ _ _).mp hvalue),
    hconducts.coherent⟩

theorem ofExcept (result : Except E A) (hstart : always [] []) :
    Conducts (Program.ofExcept result) always fun value input output =>
      result = .ok value ∧ input = [] ∧ output = [] := by
  refine ⟨.ofExcept hstart fun value hvalue => ⟨hvalue, rfl, rfl⟩, ?_,
    coherent_ofExcept result⟩
  rintro value _ _ ⟨hvalue, rfl, rfl⟩
  exact Talks.ofExcept hvalue

/-- A result that is there already, and what comes after it. -/
theorem ofExcept_bind {result : Except E A} {rest : A → Program E B}
    {returns : A → B → Bytes → Bytes → Prop} (hstart : always [] [])
    (hrest : ∀ value, result = .ok value →
      Conducts (rest value) always (returns value)) :
    Conducts (Program.ofExcept result >>= rest) always
      fun final input output => ∃ value, result = .ok value ∧
        returns value final input output := by
  cases result with
  | ok value => exact (hrest value rfl).mono (fun _ _ h => h) (by simp)
  | error error =>
      exact Conducts.mono (ofExcept (.error error) hstart) (fun _ _ h => h)
        (by simp)

theorem sync (hconducts : Conducts program always returns) :
    Conducts (.sync program) always returns :=
  ⟨hconducts.keeps.sync, fun _ _ _ hvalue =>
    (Talks.sync program).trans (hconducts.talks _ _ _ hvalue),
    .sync hconducts.coherent⟩

theorem bind {rest : A → Program E B}
    {restAlways : A → Bytes → Bytes → Prop}
    {restReturns : A → B → Bytes → Bytes → Prop}
    {during : Bytes → Bytes → Prop} {between : A → Bytes → Bytes → Prop}
    {returns : B → Bytes → Bytes → Prop}
    (hprogram : Conducts program during between)
    (hrest : ∀ value, Conducts (rest value) (restAlways value)
      (restReturns value))
    (hduring : ∀ input output, during input output → always input output)
    (hafter : ∀ value before sent input output, between value before sent →
      restAlways value input output →
        always (before ++ input) (sent ++ output))
    (hreturns : ∀ result input output, returns result input output ↔
      ∃ value before sent after later, between value before sent ∧
        restReturns value result after later ∧ input = before ++ after ∧
          output = sent ++ later) :
    Conducts (program >>= rest) always returns := by
  refine ⟨hprogram.keeps.bind hduring fun value before sent hbetween => ?_,
    fun result input output hresult => ?_,
    hprogram.coherent.bind fun value => (hrest value).coherent⟩
  · apply (hrest value).keeps.mono
    · intro input output hstays
      exact hafter _ _ _ _ _ hbetween hstays
    · intro result input output hresult
      exact (hreturns _ _ _).mpr
        ⟨value, before, sent, input, output, hbetween, hresult, rfl, rfl⟩
  · obtain ⟨value, before, sent, after, later, hbetween, hlater, rfl, rfl⟩ :=
      (hreturns _ _ _).mp hresult
    exact (hprogram.talks _ _ _ hbetween).andThen
      ((hrest value).talks _ _ _ hlater)

end Conducts

/-- The program writes `bytes` and reads nothing. -/
abbrev Writes (program : Program E Unit) (bytes : Bytes) : Prop :=
  Conducts program (fun input output => input = [] ∧ output <+: bytes)
    fun _ input output => input = [] ∧ output = bytes

/-- The program writes nothing, reads no more than `most` bytes, and takes one
of the texts that stand for its value. -/
abbrev Reads (program : Program E A) (most : Nat)
    (accepts : A → Bytes → Prop) : Prop :=
  Conducts program (fun input output => input.length ≤ most ∧ output = [])
    fun value input output => accepts value input ∧ output = []

namespace Writes

theorem send (bytes : Bytes) :
    Writes (Program.send bytes : Program E Unit) bytes := by
  refine ⟨Keeps.write (fun _ hsent => ⟨rfl, hsent⟩) (Keeps.pure ?_ ?_), ?_,
    coherent_send bytes⟩
  · exact ⟨rfl, by rw [List.append_nil]⟩
  · exact ⟨rfl, List.append_nil _⟩
  · rintro _ _ _ ⟨rfl, rfl⟩
    exact Talks.send _

theorem call : Writes (Program.call : Program E Unit) [] := by
  apply Conducts.sync
  apply (Conducts.ofExcept (.ok ()) ⟨rfl, List.nil_prefix⟩).mono
    fun _ _ h => h
  simp

variable {program : Program E Unit} {bytes : Bytes}

/-- What comes after a part that only writes. -/
theorem andThen {rest : Unit → Program E B} {always : Bytes → Bytes → Prop}
    {returns : B → Bytes → Bytes → Prop} (hwrites : Writes program bytes)
    (hsent : ∀ sent, sent <+: bytes → always [] sent)
    (hrest : Keeps (rest ())
      (fun input output => always input (bytes ++ output))
      fun result input output => returns result input (bytes ++ output)) :
    Keeps (program >>= rest) always returns := by
  apply Keeps.bind hwrites.keeps
  · rintro input output ⟨rfl, hfront⟩
    exact hsent output hfront
  · rintro value before sent ⟨rfl, rfl⟩
    exact hrest

theorem bind {rest : Unit → Program E Unit} {more : Bytes}
    (hwrites : Writes program bytes) (hrest : Writes (rest ()) more) :
    Writes (program >>= rest) (bytes ++ more) := by
  refine ⟨hwrites.andThen ?_ (hrest.keeps.mono ?_ ?_), ?_,
    hwrites.coherent.bind fun _ => hrest.coherent⟩
  · intro sent hfront
    exact ⟨rfl, hfront.trans (List.prefix_append _ _)⟩
  · rintro input output ⟨rfl, hfront⟩
    exact ⟨rfl, (List.prefix_append_right_inj _).mpr hfront⟩
  · rintro result input output ⟨rfl, rfl⟩
    exact ⟨rfl, rfl⟩
  · rintro _ _ _ ⟨rfl, rfl⟩
    exact (hwrites.talks _ _ _ ⟨rfl, rfl⟩).andThen
      (hrest.talks _ _ _ ⟨rfl, rfl⟩)

theorem run (hwrites : Writes program bytes) :
    Talks program [] bytes (pure ()) :=
  hwrites.talks _ _ _ ⟨rfl, rfl⟩

end Writes

namespace Reads

variable {program : Program E A} {most : Nat} {accepts : A → Bytes → Prop}

theorem run (hreads : Reads program most accepts) (value : A) {input : Bytes}
    (hvalue : accepts value input) : Talks program input [] (Pure.pure value) :=
  hreads.talks _ _ _ ⟨hvalue, rfl⟩

theorem length_le (hreads : Reads program most accepts) (value : A)
    {input : Bytes} (hvalue : accepts value input) : input.length ≤ most :=
  (hreads.always_of_returns ⟨hvalue, rfl⟩).1

theorem mono {bound : Nat} {accepts' : A → Bytes → Prop}
    (hreads : Reads program most accepts) (hmost : most ≤ bound)
    (haccepts : ∀ value input, accepts' value input ↔ accepts value input) :
    Reads program bound accepts' := by
  apply Conducts.mono hreads
  · rintro input output ⟨hinput, houtput⟩
    exact ⟨hinput.trans hmost, houtput⟩
  · intro value input output
    rw [haccepts]

theorem ofExcept (result : Except E A) :
    Reads (Program.ofExcept result) 0 fun value input =>
      result = .ok value ∧ input = [] :=
  (Conducts.ofExcept result ⟨Nat.le_refl 0, rfl⟩).mono
    (fun _ _ h => h) fun _ _ _ => and_assoc

theorem pure (value : A) :
    Reads (Pure.pure value : Program E A) 0 fun result input =>
      result = value ∧ input = [] := by
  apply (ofExcept (.ok value)).mono (Nat.le_refl 0)
  intro result input
  rw [Except.ok.injEq, eq_comm]

theorem fail (error : E) :
    Reads (Program.fail error : Program E A) 0 fun _ _ => False := by
  apply (ofExcept (.error error)).mono (Nat.le_refl 0)
  intro result input
  simp

theorem readExact (closed : E) (count : Nat) :
    Reads (Program.readExact closed count) count fun value input =>
      value = input ∧ input.length = count := by
  refine ⟨(Keeps.readExact closed count).mono (fun _ _ h => h) ?_, ?_,
    coherent_readExact closed count⟩
  · rintro value input output ⟨hvalue, hlength, houtput⟩
    exact ⟨⟨hvalue, hlength⟩, houtput⟩
  · rintro _ input _ ⟨⟨rfl, hlength⟩, rfl⟩
    exact Talks.readExact closed hlength

/-- One byte, and what is read after it. -/
theorem readOne {next : Bytes → Program E A} {error : E}
    (hclosed : next [] = Program.fail error)
    (hempty : ∀ value, ¬ accepts value [])
    (hnext : ∀ byte more, Reads (next (byte :: more)) most
      fun value rest => accepts value (byte :: rest)) :
    Reads (.read 1 next) (most + 1) accepts := by
  refine ⟨Keeps.read ⟨Nat.zero_le _, rfl⟩ ?_, ?_, coherent_readOne ?_⟩
  · intro chunk hchunk
    cases chunk with
    | nil => exact hclosed ▸ Keeps.fail ⟨Nat.zero_le _, rfl⟩
    | cons byte more =>
        obtain rfl : more = [] := List.length_eq_zero_iff.mp
          (Nat.le_zero.mp (Nat.le_of_succ_le_succ hchunk))
        apply (hnext byte []).keeps.mono
        · rintro input output ⟨hinput, rfl⟩
          exact ⟨Nat.succ_le_succ hinput, rfl⟩
        · exact fun _ _ _ h => h
  · rintro value input _ ⟨hvalue, rfl⟩
    cases input with
    | nil => exact absurd hvalue (hempty value)
    | cons byte rest =>
        exact (Talks.read next (List.cons_ne_nil byte []) (Nat.le_refl 1)).trans
          ((hnext byte []).run value hvalue)
  · intro chunk
    cases chunk with
    | nil => exact hclosed ▸ coherent_fail error
    | cons byte more => exact (hnext byte more).coherent

/-- A call after a read makes no difference. -/
theorem checked (hreads : Reads program most accepts) :
    Reads (do
      let value ← program
      Program.call
      return value) most accepts := by
  refine Conducts.bind hreads (fun value => (pure value).sync)
    (fun _ _ h => h) ?_ ?_
  · rintro value before _ input _ ⟨hvalue, rfl⟩ ⟨hinput, rfl⟩
    obtain rfl := List.length_eq_zero_iff.mp (Nat.le_zero.mp hinput)
    rw [List.append_nil]
    exact ⟨hreads.length_le value hvalue, rfl⟩
  · intro result input output
    constructor
    · rintro ⟨hresult, rfl⟩
      exact ⟨result, input, [], [], [], ⟨hresult, rfl⟩, ⟨⟨rfl, rfl⟩, rfl⟩,
        by simp, rfl⟩
    · rintro ⟨value, before, _, _, _, ⟨hvalue, rfl⟩, ⟨⟨rfl, rfl⟩, rfl⟩, rfl,
        rfl⟩
      rw [List.append_nil]
      exact ⟨hvalue, rfl⟩

/-- `bound` has to hold only of what comes after a value that was read. -/
theorem bind {rest : A → Program E B} {mostRest : A → Nat}
    {acceptsRest : A → B → Bytes → Prop} (hreads : Reads program most accepts)
    (hrest : ∀ value, Reads (rest value) (mostRest value) (acceptsRest value))
    (bound : Nat) (hbound : ∀ value input, accepts value input → mostRest value ≤ bound) :
    Reads (program >>= rest) (most + bound) fun result input =>
      ∃ value before after, accepts value before ∧
        acceptsRest value result after ∧ input = before ++ after := by
  apply Conducts.bind hreads hrest
  · rintro input output ⟨hinput, houtput⟩
    exact ⟨hinput.trans (Nat.le_add_right _ _), houtput⟩
  · rintro value before _ input _ ⟨hvalue, rfl⟩ ⟨hinput, rfl⟩
    rw [List.length_append]
    exact ⟨Nat.add_le_add (hreads.length_le value hvalue)
      (hinput.trans (hbound value before hvalue)), rfl⟩
  · intro result input output
    constructor
    · rintro ⟨⟨value, before, after, hvalue, hresult, rfl⟩, rfl⟩
      exact ⟨value, before, [], after, [], ⟨hvalue, rfl⟩, ⟨hresult, rfl⟩,
        rfl, rfl⟩
    · rintro ⟨value, before, _, after, _, ⟨hvalue, rfl⟩, ⟨hresult, rfl⟩, rfl,
        rfl⟩
      exact ⟨⟨value, before, after, hvalue, hresult, rfl⟩, rfl⟩

/-- What is read is checked and turned into something else. -/
theorem parse {result : A → Except E B} (hreads : Reads program most accepts) :
    Reads (program >>= fun value => Program.ofExcept (result value)) most
      fun parsed input => ∃ value, accepts value input ∧
        result value = .ok parsed := by
  apply (hreads.bind (fun value => ofExcept (result value)) 0
    fun _ _ _ => Nat.le_refl 0).mono (Nat.le_refl most)
  intro parsed input
  simp

end Reads

end Dialogue
