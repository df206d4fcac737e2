import IndentMarkup.Command.Arguments
import Mathlib.Data.List.Basic

/-!
# Single arguments

An argument that is taken as an operand stands for itself (`Form.eq_of_token`). So one argument of a command that takes
operands is refused or the only operand (`Form.read_operand`), and an argument behind an option with a value is refused
or the value (`Form.read_value`).
-/

namespace IndentMarkup

namespace Command

namespace Form

variable {σ : Type} {form : Form σ}

theorem eq_of_strange {s v : Text} (h : (strange s : Token σ) = .operand v) : v = s := by
  rw [strange] at h
  split at h
  · exact (Token.operand.inj h).symm
  · cases h

theorem eq_of_token {s v : Text} (h : form.token s = .ok (.operand v)) : v = s := by
  unfold token at h
  split at h
  · unfold longToken at h
    split at h
    · cases h
    · dsimp only at h
      split at h
      · cases h
      · cases h
      · exact eq_of_strange (Except.ok.inj h)
      · cases h
  · split at h
    · exact eq_of_strange (Except.ok.inj h)
    · cases h
    · cases h
  · exact (Token.operand.inj (Except.ok.inj h)).symm

theorem settle_of_nil {t : Taking σ} (h : t.waiting = []) : t.settle form = t := by
  rw [Taking.settle, h]
  rfl

theorem fulfil_eq (t : Taking σ) (effects : List (σ → Except Refusal σ)) (leftOver : Bool) :
    t.fulfil effects leftOver =
      match effects.foldlM (fun s effect => effect s) t.settings with
      | .ok settings => .ok { t with settings, leftOver := t.leftOver || leftOver }
      | .error e => .error e := by
  rw [Taking.fulfil]
  cases effects.foldlM (fun s effect => effect s) t.settings <;> rfl

theorem read_operand {apply : List Text → σ → σ} (hoperands : form.operands = some apply) (initial : σ)
    (s : Text) :
    (∃ e, form.read initial [s] = .error e) ∨ form.read initial [s] = .ok (apply [s] initial) := by
  by_cases hdashes : s = ['-', '-']
  · subst hdashes
    exact .inl ⟨.misuse, by simp [read, tokens, Taking.take, Taking.wait, Taking.settle, hoperands, bind, Except.bind]⟩
  · have htokens : form.tokens [s] = (form.token s).map fun t => [t] := by
      rw [tokens, if_neg hdashes, tokens]
      cases form.token s <;> rfl
    rw [read, htokens]
    cases htoken : form.token s with
    | error e => exact .inl ⟨e, rfl⟩
    | ok t =>
        cases t with
        | operand v =>
            obtain rfl := eq_of_token htoken
            refine .inr ?_
            simp [Except.map, Taking.take, Taking.wait, Taking.settle, hoperands, hdashes, bind, Except.bind]
        | dashes =>
            refine .inl ⟨.misuse, ?_⟩
            simp [Except.map, Taking.take, Taking.wait, Taking.settle, hoperands, bind, Except.bind]
        | options request =>
            -- options leave no operand, so the command is refused whatever they ask for
            refine .inl ?_
            cases request with
            | error e => exact ⟨e, rfl⟩
            | ok request =>
                obtain ⟨effects, missing, leftOver⟩ := request
                cases missing with
                | some apply => exact ⟨.misuse, rfl⟩
                | none =>
                    simp only [Except.map, bind, Except.bind, Taking.take, settle_of_nil, fulfil_eq]
                    cases effects.foldlM (fun s effect => effect s) initial with
                    | error e => exact ⟨e, rfl⟩
                    | ok settings => exact ⟨.misuse, by simp [settle_of_nil, hoperands]⟩

theorem read_value {word : Text} {apply : Text → σ → Option σ} {empty : σ → σ} (hoperands : form.operands = none)
    (hword : word ≠ ['-', '-']) (htoken : form.token word = .ok (.options ((Effect.value apply empty).request none)))
    (initial : σ) (s : Text) :
    (∃ e, form.read initial [word, s] = .error e) ∨
      ∃ settings, apply s initial = some settings ∧ form.read initial [word, s] = .ok settings := by
  have htokens : form.tokens [word, s] =
      (form.tokens [s]).map fun ts => .options ((Effect.value apply empty).request none) :: ts := by
    rw [tokens, if_neg hword, htoken]
    cases form.tokens [s] <;> rfl
  rw [read, htokens]
  by_cases hdashes : s = ['-', '-']
  · subst hdashes
    exact .inl ⟨.misuse, rfl⟩
  · rw [tokens, if_neg hdashes]
    cases hs : form.token s with
    | error e => exact .inl ⟨e, rfl⟩
    | ok t =>
        cases t with
        | dashes => exact .inl ⟨.misuse, rfl⟩
        | options request => exact .inl ⟨.misuse, rfl⟩
        | operand v =>
            obtain rfl := eq_of_token hs
            simp only [Except.map, bind, Except.bind, tokens, Taking.take, Effect.request, settle_of_nil, fulfil_eq]
            cases happly : apply v initial with
            | none => exact .inl ⟨.misuse, by simp [withValue, hdashes, happly, bind, Except.bind]⟩
            | some settings =>
                refine .inr ⟨settings, rfl, ?_⟩
                simp [withValue, hdashes, happly, hoperands, settle_of_nil, bind, Except.bind, pure, Except.pure]

end Form

end Command

end IndentMarkup
