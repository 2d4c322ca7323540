/-
# What the server acquires and releases

The listening socket, the listening event source and the listener for the destruction of
the display, as a ledger read off the log.  `serve` and `handle_display_destroy` are the
only callbacks that write into it, and the other callbacks leave the pointers alone.
-/
import WayfireIpc.Server.Listing
import WayfireIpc.Lib.Ledger

namespace WayfireIpc

/-- The entry of the ledger that an entry of the log is. -/
def Obs.entry : Obs → Option (Ledger.Entry Resource)
  | .acquired r => some (.acquired r)
  | .released r => some (.released r)
  | _ => none

namespace Server

variable {W : World} {s s' s₁ s₂ : Server}

/-- What the server has acquired and released. -/
def ledger (s : Server) : Ledger Resource := s.log.filterMap Obs.entry

/-- The pointers and the ledger of `s'` are those of `s`. -/
structure Keeps (s s' : Server) : Prop where
  socket_eq : s'.ipcSocket = s.ipcSocket
  source_eq : s'.ipcEventSource = s.ipcEventSource
  next_eq : s'.nextResource = s.nextResource
  ledger_eq : s'.ledger = s.ledger

namespace Keeps

lemma refl : Keeps s s := ⟨rfl, rfl, rfl, rfl⟩

lemma trans (h : Keeps s s₁) (h' : Keeps s₁ s₂) : Keeps s s₂ where
  socket_eq := h'.socket_eq.trans h.socket_eq
  source_eq := h'.source_eq.trans h.source_eq
  next_eq := h'.next_eq.trans h.next_eq
  ledger_eq := h'.ledger_eq.trans h.ledger_eq

end Keeps

lemma entry_refusal (c : ℕ) (k : I3IpcClient) (n : ℕ) : (refusal c k n).entry = none := by
  rcases client_refusal c k n with h | h <;> rw [h] <;> rfl

lemma Move.keeps {e : Effect} (h : Move W s e s') (hserve : e ≠ .serve) (hrelease : e ≠ .release) :
    Keeps s s' := by
  cases h with
  | serve => exact absurd rfl hserve
  | release => exact absurd rfl hrelease
  | refuse =>
    refine ⟨rfl, rfl, rfl, ?_⟩
    have hnil : ∀ c, Obs.entry (.disconnected c) = none := fun _ => rfl
    simp [ledger, refused, Server.drop, note, entry_refusal, hnil]
  | _ =>
    exact ⟨rfl, rfl, rfl, by
      simp [ledger, enqueued, Server.drop, put, handleConnection, arrived, readTo, wrote, Obs.entry]⟩

lemma Moves.keeps {es : List Effect} (h : Moves W s es s') (hserve : .serve ∉ es)
    (hrelease : .release ∉ es) : Keeps s s' := by
  induction h with
  | nil => exact .refl
  | cons hm _ ih =>
    have hserve := not_or.mp (List.mem_cons.not.mp hserve)
    have hrelease := not_or.mp (List.mem_cons.not.mp hrelease)
    exact (hm.keeps (Ne.symm hserve.1) (Ne.symm hrelease.1)).trans (ih hserve.2 hrelease.2)

/-- No other input than a start or the destruction of the display touches the ledger. -/
lemma step_keeps (hs : s.Inv) {i : Input} (hserve : i ≠ .serve) (hdestroy : i ≠ .displayDestroy)
    (hi : s.StartsAlone i) (hstep : step W s i = .ok s') : Keeps s s' := by
  obtain ⟨es, hmoves, hes, hallow⟩ := step_moves_of_startsAlone hs hserve hi hstep
  refine hmoves.keeps hes fun hrelease => ?_
  have hallow := hallow _ hrelease
  cases i with
  | serve => exact hserve rfl
  | displayDestroy => exact hdestroy rfl
  | _ => simp [Input.Allows, Effect.Output] at hallow

@[simp] lemma serve_ledger : s.serve.ledger = s.ledger ++
    [.acquired (.listenSocket s.nextResource), .acquired .displayDestroyListener,
      .acquired (.listenSource (s.nextResource + 1))] := by
  simp [ledger, serve, Obs.entry]

/-- Entries about no client keep the invariant. -/
lemma Inv.notes (hs : s.Inv) {l : List Obs} (hl : ∀ o ∈ l, o.client = none) :
    Inv { s with log := s.log ++ l } := by
  refine ⟨hs.listed_live, hs.list_nodup, hs.live_lt, fun o ho c hc => ?_, hs.read_iff, hs.write_iff,
    hs.wf⟩
  rcases List.mem_append.mp ho with ho | ho
  · exact hs.log_lt o ho c hc
  · cases (hl o ho).symm.trans hc

/-- What `handle_display_destroy` releases. -/
def teardown (s : Server) : Ledger Resource :=
  s.ipcEventSource.toList.map (fun r => .released (.listenSource r)) ++
    s.ipcSocket.toList.map (fun r => .released (.listenSocket r)) ++
    [.released .displayDestroyListener]

/-- `handle_display_destroy` returns; it releases what the pointers point to and leaves them as they
are. -/
theorem handleDisplayDestroy_spec (hs : s.Inv) :
    ∃ s', s.handleDisplayDestroy = .ok s' ∧ s'.Inv ∧ s'.ipcSocket = s.ipcSocket ∧
      s'.ipcEventSource = s.ipcEventSource ∧ s'.nextResource = s.nextResource ∧
      s'.ledger = s.ledger ++ s.teardown ∧ ∃ obs, s'.log = s.log ++ obs ∧
        (∀ r, s.ipcSocket = some r → .released (.listenSocket r) ∈ obs) := by
  -- the two releases in front of the loop
  set obs : List Obs := s.ipcEventSource.toList.map (fun r => Obs.released (.listenSource r)) ++
    s.ipcSocket.toList.map (fun r => Obs.released (.listenSocket r)) with hobs
  set s₁ : Server := { s with log := s.log ++ obs } with hs₁
  have heq : s.handleDisplayDestroy = (disconnectAll s₁.ipcClientList.length s₁ >>= fun s =>
      .ok ({ s with ipcClientList := [] }.note (.released .displayDestroyListener))) := by
    rw [hs₁, hobs]
    obtain ⟨heap, next, list, read, write, unread, socket, source, resource, log⟩ := s
    cases source <;> cases socket <;>
      simp only [handleDisplayDestroy, note, Option.toList, List.map_nil, List.map_cons,
        List.append_nil, List.nil_append, List.append_assoc, List.cons_append] <;> rfl
  have hclient : ∀ o ∈ obs, o.client = none := by
    intro o ho
    rcases List.mem_append.mp ho with ho | ho <;>
      obtain ⟨r, -, rfl⟩ := List.mem_map.mp ho <;> rfl
  have hinv₁ : s₁.Inv := hs.notes hclient
  obtain ⟨es, s₂, heq₂, hmoves, hes, hnil⟩ := disconnectAll_moves (W := plainWorld) _ s₁ hinv₁ rfl
  have hkeeps : Keeps s₁ s₂ := hmoves.keeps
    (fun hserve => by obtain ⟨c, hc⟩ := hes _ hserve; cases hc)
    (fun hrelease => by obtain ⟨c, hc⟩ := hes _ hrelease; cases hc)
  have hclear : { s₂ with ipcClientList := [] } = s₂ := by rw [← hnil]
  refine ⟨s₂.note (.released .displayDestroyListener), ?_, ?_, hkeeps.socket_eq, hkeeps.source_eq,
    hkeeps.next_eq, ?_, ?_⟩
  · rw [heq, heq₂, Machine.ok_bind, hclear]
  · exact (hmoves.inv hinv₁).notes (l := [.released .displayDestroyListener]) (by simp [Obs.client])
  · have hledger : s₁.ledger = s.ledger ++
        (s.ipcEventSource.toList.map (fun r => .released (.listenSource r)) ++
          s.ipcSocket.toList.map (fun r => .released (.listenSocket r))) := by
      simp [ledger, hs₁, hobs, List.filterMap_append, List.filterMap_map, Function.comp_def,
        Obs.entry]
    calc (s₂.note (.released .displayDestroyListener)).ledger
        = s₂.ledger ++ [.released .displayDestroyListener] := by
          simp [ledger, note, Obs.entry]
      _ = s.ledger ++ s.teardown := by
          rw [hkeeps.ledger_eq, hledger, teardown, List.append_assoc]
  · obtain ⟨obs', hlog, -⟩ := hmoves.log_grows
    refine ⟨obs ++ (obs' ++ [.released .displayDestroyListener]), ?_, fun r hr => ?_⟩
    · show s₂.log ++ [.released .displayDestroyListener] = _
      rw [hlog, List.append_assoc, List.append_assoc]
    · refine List.mem_append_left _ (List.mem_append_right _ ?_)
      simp [hr]

end Server

end WayfireIpc
