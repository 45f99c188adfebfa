import ScriptShell.Proofs.Prompt.Units
import ScriptShell.Proofs.Text.Utf8

namespace ScriptShell

open Text (IsCut encode endsInsideChar readUtf8From)

namespace Prompt

variable {file : String → FileState} {size : Nat}

/-- A draft that ends inside a character is gathered further if what is in front of that
character are whole characters. Where it is not, the check for units alone decides. Once the
rest of the character is read, it is read as it is in either case. -/
theorem take_cut (file : String → FileState) (p : Prompt) {line front cut : List UInt8}
    (hbytes : p.draft.bytes ++ line = front ++ cut) (hcut : IsCut cut) :
    ((∃ cs, front = encode cs) →
      p.take file line = .ok (.inl ⟨p.shell, p.draft.add line⟩)) ∧
    ((¬ ∃ cs, front = encode cs) → (p.draft.add line).isComplete p.shell.runtime =
      p.shell.runtime.isCompilable (p.draft.add line).source) ∧
    ∀ c more rest, String.utf8EncodeChar c = cut ++ more →
      readUtf8From 0 (p.draft.bytes ++ line ++ (more ++ rest)) =
        readUtf8From 0 front ++ c :: readUtf8From 0 rest := by
  have hadd : (p.draft.add line).bytes = front ++ cut := hbytes
  -- The first fault of the bytes decides: it is the cut itself only if all is well in front of it.
  refine ⟨fun hwhole => take_incomplete ?_, fun hbad => ?_, fun c more rest hc => ?_⟩
  · rw [Draft.isComplete, hadd, (Text.endsInsideChar_cut_iff hcut front).mpr hwhole]
    rfl
  · have hends : endsInsideChar 0 (front ++ cut) = false :=
      Bool.eq_false_iff.mpr (mt (Text.endsInsideChar_cut_iff hcut front).mp hbad)
    rw [Draft.isComplete, hadd, hends, Bool.not_false, Bool.true_and]
  · rw [hbytes, List.append_assoc, ← List.append_assoc cut, ← hc, Text.readUtf8From_append_char]

theorem isCut_acute : IsCut [0xC3] :=
  ⟨by decide, 'é', [0xA9], by decide, by decide +kernel⟩

theorem take_cut_comment :
    IsCut [0xC3] ∧ (∃ cs, [0x2F, 0x2F] = encode cs) ∧ (¬ ∃ cs, [0x2F, 0x2F, 0xFF] = encode cs) ∧
      take (fun _ => .unknown) (start Shell.typedBlock).ask [0x2F, 0x2F, 0xC3] =
        .ok (.inl ⟨write text Shell.typedBlock, ⟨0, 1, [0x2F, 0x2F, 0xC3]⟩⟩) ∧
      Draft.isComplete Shell.typedBlock.runtime ⟨0, 1, [0x2F, 0x2F, 0xFF, 0xC3]⟩ = true := by
  have hwhole : ∃ cs, [0x2F, 0x2F] = encode cs := ⟨['/', '/'], by decide +kernel⟩
  have hbad : ¬ ∃ cs, [0x2F, 0x2F, 0xFF] = encode cs :=
    mt (Text.endsInsideChar_cut_iff isCut_acute _).mpr (by decide +kernel)
  refine ⟨isCut_acute, hwhole, hbad, ?_, ?_⟩
  · exact (@take_cut (fun _ => .unknown) (start Shell.typedBlock).ask [0x2F, 0x2F, 0xC3]
      [0x2F, 0x2F] _ rfl isCut_acute).1 hwhole
  · have hcheck := (@take_cut (fun _ => .unknown) (start Shell.typedBlock).ask
      [0x2F, 0x2F, 0xFF, 0xC3] [0x2F, 0x2F, 0xFF] _ rfl isCut_acute).2.1 hbad
    exact hcheck.trans (by decide +kernel)

end Prompt

end ScriptShell
