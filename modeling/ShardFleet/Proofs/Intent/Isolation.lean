import ShardFleet.Proofs.Intent.Ends
import ShardFleet.Proofs.Intent.Scopes

/-!
Nobody sees the intents of others.

Whatever a session has done with its contexts, and whichever way its scopes were closed, the live
scopes of a context decide its intent, and a command on one stack is not seen on another. A body
that runs with intents around its parts sees at each place what is put around that place, however
the turns of its flows fall (`intents_isolated`). This needs that no scope is opened on a context
shared with a body at its side, as none is where intents are put around forks alone
(`Flow.lexicals_of_forkings`).
-/

namespace ShardFleet

/-- The history that comes before a command of a history. -/
theorem Programmed.earlier {earlier later : List ContextCommand} {command : ContextCommand}
    (programmed : Programmed (earlier ++ command :: later)) :
    Programmed (earlier ++ [command]) := by
  intro before other after cut
  refine programmed before other (after ++ later) ?_
  rw [← List.singleton_append, ← List.append_assoc, cut]
  simp

/-- After every history the intent of a context is what its live scopes decide, and no command of
it changed what is seen of a context with another stack. Every lexical body runs to its end, and
shows what is told from the intents around each of its places. -/
theorem intents_isolated {history : List ContextCommand} (programmed : Programmed history)
    {body : List Flow} (lexical : Flow.lexicals false body = true) :
    (∀ context, Held history context →
      Decides (Live history ((Layout.after history).stackOf context))
        ((history.foldl ContextSession.perform {}).view context).effective) ∧
    (∀ earlier command later context, history = earlier ++ command :: later →
      Held earlier context → Held (earlier ++ [command]) context →
        command.target? earlier ≠ some ((Layout.after earlier).stackOf context) →
          ((earlier ++ [command]).foldl ContextSession.perform {}).view context =
            (earlier.foldl ContextSession.perform {}).view context) ∧
    ((Flow.begun body).advance (Flow.stepBound body)).main.result? =
      some (Flow.tolds none body) ∧
    (Flow.run body).1 = Flow.tolds none body := by
  refine ⟨fun context held => ?_, ?_, Flow.run_ended lexical, Flow.run_shown lexical⟩
  · obtain ⟨entries, tells⟩ := Tells.after programmed
    exact tells.decides held
  · rintro earlier command later context rfl before after elsewhere
    exact ContextSession.view_perform programmed.earlier before after elsewhere

/-- A context and a fork of it that number their next scopes alike. -/
def forkedHistory : List ContextCommand :=
  [.push 0 .read, .fork 0, .push 1 .forceWrite, .push 0 .write, .close 1]

/-- A forced write next to a body that is to read. -/
def joinedBody : List Flow :=
  [.withIntent .read
    [.join [.withIntent .forceWrite [.spawn [.observe], .withIntent .read [.observe]]] [.observe],
      .observe]]

/-- After a history that forks its context, and in a body that joins two branches, whoever looks
sees what holds in its own place. -/
theorem intents_isolated_forked :
    Programmed forkedHistory ∧ Flow.lexicals false joinedBody = true ∧ Held forkedHistory 0 ∧
      Decides (Live forkedHistory 0)
        ((forkedHistory.foldl ContextSession.perform {}).view 0).effective ∧
      (Flow.run joinedBody).1 = Flow.tolds none joinedBody := by
  have programmed : Programmed forkedHistory := by decide
  have lexical := Flow.lexicals_of_forkings false joinedBody (by decide)
  have held : Held forkedHistory 0 := by decide
  obtain ⟨decides, -, -, shown⟩ := intents_isolated programmed lexical
  exact ⟨programmed, lexical, held, decides 0 held, shown⟩

end ShardFleet
