import CmyMessage.FileTransfer.Download
import CmyMessage.Foundation.SendLoop

/-!
# The sending loops

The server's `send_file` and the loop of the client's `upload_file` count down what they read from
the file.  The results of their `send` calls are dropped, so what a call does not accept is lost.
-/

namespace CmyMessage

/-- The loop of `send_file` on a file, with the `int` it is called with. -/
def sendFileLoop (filesize : Int) (content : List UInt8) : SendLoop.Pc :=
  SendLoop.enter filesize.toNat content []

/-- The sending loop of the client's `upload_file` on a file, with the `long` it has measured. -/
def FtpClient.uploadFileLoop (filesize : Int) (content : List UInt8) : SendLoop.Pc :=
  SendLoop.enter filesize.toNat content []

/-- The pieces that a loop offers while every `send` takes all of them are the chunks of the file.
-/
theorem offered_chunks (fuel remaining : Nat) (content accepted : List UInt8) :
    SendLoop.TakesWhole bufferSize (SendLoop.enter remaining content accepted)
        ((chunks fuel remaining content).map List.length) ∧
      (remaining ≤ fuel → SendLoop.run bufferSize (SendLoop.enter remaining content accepted)
          ((chunks fuel remaining content).map List.length) =
        .returned (decide (remaining ≤ content.length))
          (accepted ++ (chunks fuel remaining content).flatten)) := by
  induction fuel generalizing remaining content accepted with
  | zero =>
      refine ⟨trivial, fun enough => ?_⟩
      rw [Nat.le_zero.mp enough, chunks, List.flatten_nil, List.append_nil]
      exact SendLoop.enter_done (.inl rfl)
  | succ fuel ih =>
      rw [chunks]
      split
      · rename_i done
        refine ⟨trivial, fun _ => ?_⟩
        rw [List.flatten_nil, List.append_nil]
        exact SendLoop.enter_done done
      · rename_i more
        have steps := SendLoop.step_whole bufferSize remaining content accepted
        obtain ⟨whole, ran⟩ := ih (remaining - (content.take (min remaining bufferSize)).length)
          (content.drop (min remaining bufferSize))
          (accepted ++ content.take (min remaining bufferSize))
        rw [SendLoop.enter_more more, List.map_cons]
        refine ⟨⟨rfl, steps.symm ▸ whole⟩, fun enough => ?_⟩
        rw [not_or, ← List.length_eq_zero_iff] at more
        have read : (content.take (min remaining bufferSize)).length =
            min (min remaining bufferSize) content.length := List.length_take
        have sized : 0 < bufferSize := by decide
        rw [SendLoop.run, List.foldl_cons, steps, List.flatten_cons, ← List.append_assoc]
        refine (ran (by omega)).trans ?_
        congr 1
        rw [List.length_drop, decide_eq_decide]
        omega

/-- When one of the two loops ends normally, the socket has accepted the first `filesize` bytes of
the file exactly if every `send` took the whole piece it was offered. -/
theorem partial_sends_lossless_iff {filesize : Int} {content : List UInt8} {loop : SendLoop.Pc}
    (member : loop = sendFileLoop filesize content ∨
      loop = FtpClient.uploadFileLoop filesize content) {counts : List Nat}
    (admits : SendLoop.Admits bufferSize loop counts) {accepted : List UInt8}
    (ends : SendLoop.run bufferSize loop counts = .returned true accepted) :
    accepted = content.take filesize.toNat ↔ SendLoop.TakesWhole bufferSize loop counts := by
  have same : loop = SendLoop.enter filesize.toNat content [] := member.elim id id
  subst same
  exact (SendLoop.run_admitted admits ends).2.2

/-- A file of three bytes is sent by one call. -/
theorem partial_sends_lossless_iff_whole :
    [120, 121, 122] = ([120, 121, 122, 10] : List UInt8).take (3 : Int).toNat ↔
      SendLoop.TakesWhole bufferSize (sendFileLoop 3 [120, 121, 122, 10]) [3] := by
  have admits : SendLoop.Admits bufferSize (sendFileLoop 3 [120, 121, 122, 10]) [3] :=
    ⟨by decide, by decide, trivial⟩
  exact partial_sends_lossless_iff (.inl rfl) admits rfl

/-- The one call of a loop takes a single byte of three, and the loop ends as if all were sent. -/
theorem partial_send_loses :
    SendLoop.Admits bufferSize (sendFileLoop 3 [120, 121, 122]) [1] ∧
      SendLoop.run bufferSize (sendFileLoop 3 [120, 121, 122]) [1] = .returned true [120] ∧
      [120] ≠ ([120, 121, 122] : List UInt8).take (3 : Int).toNat :=
  ⟨⟨by decide, by decide, trivial⟩, rfl, by decide⟩

end CmyMessage
