import AtomSpaceCog.Simple.Operations

/-! # An operation by itself

An operation of a `CogSimpleStorage` carried out on an open connection with no other thread
in between: what it sends, given the replies that it receives.
-/

namespace AtomSpaceCog.Simple

variable {Local : Type}

/-- A program sends some messages and receives some replies, and has another program left to
do. -/
inductive Talks : Prog Local → Local → List Str → List Str → Prog Local → Local → Prop where
  | here (prog : Prog Local) (state : Local) : Talks prog state [] [] prog state
  | touch {change : Local → Local} {next : Local → Prog Local} {state final : Local}
      {sent received : List Str} {rest : Prog Local} :
      Talks (next state) (change state) sent received rest final →
        Talks (.touch change next) state sent received rest final
  | connected {next : Bool → Prog Local} {state final : Local} {sent received : List Str}
      {rest : Prog Local} :
      Talks (next true) state sent received rest final →
        Talks (.connected next) state sent received rest final
  | lock {next rest : Prog Local} {state final : Local} {sent received : List Str} :
      Talks next state sent received rest final →
        Talks (.lock next) state sent received rest final
  | unlock {next rest : Prog Local} {state final : Local} {sent received : List Str} :
      Talks next state sent received rest final →
        Talks (.unlock next) state sent received rest final
  | send {msg : Str} {next rest : Prog Local} {state final : Local} {sent received : List Str} :
      Talks next state sent received rest final →
        Talks (.send msg next) state (msg :: sent) received rest final
  | recv {next : Str → Prog Local} {reply : Str} {rest : Prog Local} {state final : Local}
      {sent received : List Str} :
      Talks (next reply) state sent received rest final →
        Talks (.recv next) state sent (reply :: received) rest final

theorem Talks.trans {prog middle rest : Prog Local} {state between final : Local}
    {sent received sent' received' : List Str}
    (first : Talks prog state sent received middle between)
    (second : Talks middle between sent' received' rest final) :
    Talks prog state (sent ++ sent') (received ++ received') rest final := by
  induction first with
  | here => exact second
  | touch _ ih => exact .touch (ih second)
  | connected _ ih => exact .connected (ih second)
  | lock _ ih => exact .lock (ih second)
  | unlock _ ih => exact .unlock (ih second)
  | send _ ih => exact .send (ih second)
  | recv _ ih => exact .recv (ih second)

/-- What an operation sends up to its end, and the state that it leaves, are determined by the
replies. -/
theorem Talks.unique {prog : Prog Local} {how how' : Exit} {state final final' : Local}
    {sent sent' received : List Str} (first : Talks prog state sent received (.exit how) final)
    (second : Talks prog state sent' received (.exit how') final') :
    sent = sent' ∧ final = final' := by
  generalize ends : Prog.exit how = rest at first
  induction first generalizing sent' with
  | here =>
      subst ends
      cases second
      exact ⟨rfl, rfl⟩
  | touch _ ih =>
      cases second with
      | touch second => exact ih second ends
  | connected _ ih =>
      cases second with
      | connected second => exact ih second ends
  | lock _ ih =>
      cases second with
      | lock second => exact ih second ends
  | unlock _ ih =>
      cases second with
      | unlock second => exact ih second ends
  | send _ ih =>
      cases second with
      | send second =>
          obtain ⟨rfl, rfl⟩ := ih second ends
          exact ⟨rfl, rfl⟩
  | recv _ ih =>
      cases second with
      | recv second => exact ih second ends

end AtomSpaceCog.Simple
