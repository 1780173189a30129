/-
  Where the datagrams go.

  The text of an address is read back by `inet_addr`, and passes the check of
  the constructor; so does any name that resolves.  But `inet_addr` gets the
  name as it was given, and what it makes of a name that is not an address is
  the address of the limited broadcast, which the socket may not send to.

  * `inetAddr_inetNtop`, `tokens_inetNtop`: the text of an address;
  * `delivered_to_address`: datagrams for an address go to it;
  * `named_undelivered`: those for a name go nowhere.
-/
import ReadoutMaster.Proof.CommandLine
import ReadoutMaster.Proof.Network

namespace ReadoutMaster

open Args Machine

/-! ## Texts of addresses -/

theorem octets_lt (a : UInt32) : ∀ n ∈ octets a, n < 256 := by
  have h := a.toNat_lt
  intro n hn
  simp only [octets, List.mem_cons, List.not_mem_nil, or_false] at hn
  omega

theorem partValue_toDigits {n : ℕ} (h : n < 256) : partValue (Nat.toDigits 10 n) = some n := by
  have hall : ∀ n < 256, partValue (Nat.toDigits 10 n) = some n := by decide +kernel
  exact hall n h

theorem mapM_partValue : ∀ {ns : List ℕ}, (∀ n ∈ ns, n < 256) →
    (ns.map (Nat.toDigits 10)).mapM partValue = some ns
  | [], _ => rfl
  | n :: ns, h => by
    have hn := partValue_toDigits (h n List.mem_cons_self)
    have hns := mapM_partValue fun m hm => h m (List.mem_cons_of_mem _ hm)
    rw [List.map_cons, List.mapM_cons, hn, hns]
    rfl

theorem dot_not_mem_toDigits (n : ℕ) : '.' ∉ Nat.toDigits 10 n := fun h =>
  absurd (isDigit_toDigits h) (by decide)

theorem splitOn_inetNtop (a : UInt32) :
    (inetNtop a).splitOn '.' = (octets a).map (Nat.toDigits 10) := by
  refine List.splitOn_intercalate '.' ?_ (List.cons_ne_nil _ _)
  intro digits h
  obtain ⟨n, -, rfl⟩ := List.mem_map.1 h
  exact dot_not_mem_toDigits n

/-- **The text of an address is read back.** -/
theorem inetAddr_inetNtop (a : UInt32) : inetAddr (inetNtop a) = a := by
  have h := a.toNat_lt
  have hparts : ((inetNtop a).splitOn '.').mapM partValue = some (octets a) := by
    rw [splitOn_inetNtop]
    exact mapM_partValue (octets_lt a)
  rw [inetAddr, hparts, octets]
  dsimp only
  rw [if_pos (by omega), ← UInt32.toNat_inj, UInt32.toNat_ofNat']
  omega

theorem inetNtop_ne_nil (a : UInt32) : inetNtop a ≠ [] := by
  intro h
  have hsplit := splitOn_inetNtop a
  rw [h] at hsplit
  exact absurd (congrArg List.length hsplit) (by simp [octets])

theorem readInts_space : ∀ (fuel : ℕ) (s : Str), readInts fuel (' ' :: s) = readInts fuel s
  | 0, _ => rfl
  | _ + 1, _ => rfl

/-- The numbers of a text in which they stand apart. -/
theorem readInts_intercalate : ∀ {ns : List ℕ} {fuel : ℕ}, (∀ n ∈ ns, n < 256) →
    ns.length < fuel → readInts fuel ([' '].intercalate (ns.map (Nat.toDigits 10))) =
      ns.map Int.ofNat
  | [], fuel + 1, _, _ => rfl
  | [n], fuel + 1, h, hf => by
    have hn : takeInt (Nat.toDigits 10 n ++ []) = some ((n : Int), []) :=
      takeInt_toDigits (n := n) (by have := h n List.mem_cons_self; omega) rfl
    have hnil : readInts fuel [] = [] := by cases fuel <;> rfl
    rw [List.append_nil] at hn
    rw [List.map_singleton, List.intercalate_singleton, readInts, hn]
    simp only [hnil]
    rfl
  | n :: m :: ns, fuel + 1, h, hf => by
    have hrest : ∀ s : Str, (' ' :: s).takeWhile Char.isDigit = [] := fun _ => rfl
    have hn := takeInt_toDigits (n := n) (by have := h n List.mem_cons_self; omega) (hrest
      ([' '].intercalate ((m :: ns).map (Nat.toDigits 10))))
    have hall : ∀ k ∈ m :: ns, k < 256 := fun k hk => h k (List.mem_cons_of_mem _ hk)
    have ih := readInts_intercalate hall (Nat.lt_of_succ_lt_succ hf)
    rw [List.map_cons, List.map_cons, List.intercalate_cons_cons, ← List.map_cons,
      List.append_assoc, List.singleton_append, readInts, hn]
    simp only [readInts_space, ih]
    rfl

theorem map_intercalate {f : Char → Char} (x : Char) :
    ∀ ls : List Str, (∀ l ∈ ls, l.map f = l) →
      ([x].intercalate ls).map f = [f x].intercalate ls
  | [], _ => rfl
  | [l], h => by
    rw [List.intercalate_singleton, List.intercalate_singleton, h l List.mem_cons_self]
  | l :: l' :: ls, h => by
    have ih := map_intercalate x (l' :: ls) fun k hk => h k (List.mem_cons_of_mem _ hk)
    rw [List.intercalate_cons_cons, List.intercalate_cons_cons, List.map_append, List.map_append,
      ih, h l List.mem_cons_self, List.map_singleton]

/-- **The check of the constructor** reads the bytes of the address. -/
theorem tokens_inetNtop (a : UInt32) :
    let tmp := (inetNtop a).map fun c => if c = '.' then ' ' else c
    readInts tmp.length tmp = (octets a).map Int.ofNat := by
  intro tmp
  have htmp : tmp = [' '].intercalate ((octets a).map (Nat.toDigits 10)) := by
    refine map_intercalate '.' _ ?_
    intro l hl
    obtain ⟨n, -, rfl⟩ := List.mem_map.1 hl
    refine (List.map_congr_left fun c hc => if_neg ?_).trans (List.map_id _)
    rintro rfl
    exact dot_not_mem_toDigits n hc
  have hlen : (octets a).length < tmp.length := by
    have hpos : ∀ n, 0 < (Nat.toDigits 10 n).length := fun n =>
      List.length_pos_of_ne_nil Nat.toDigits_ne_nil
    have h1 := hpos (a.toNat / 2 ^ 24)
    have h2 := hpos (a.toNat / 2 ^ 16 % 256)
    rw [List.length_map, inetNtop, octets]
    simp only [List.map_cons, List.map_nil, List.intercalate_cons_cons, List.intercalate_singleton,
      List.length_append, List.length_cons, List.length_nil]
    omega
  rw [htmp] at hlen ⊢
  exact readInts_intercalate (octets_lt a) hlen

/-! ## Destinations -/

/-- The datagrams that the system takes, each with where it sends it. -/
def UDPSender.delivered (s : UDPSender) (datagrams : List (List UInt8)) (k : Kernel) :
    List (SockaddrIn × List UInt8) :=
  ((s.sendAll datagrams k).1.zip datagrams).filterMap fun x =>
    if 0 ≤ x.1.bytes then some (s.sendToAddress, x.2) else none

/-- `::sendto` fails with `EACCES` if a socket that may not broadcast is to send
    to the address of the limited broadcast. -/
def Kernel.Refuses (k : Kernel) (s : UDPSender) : Prop :=
  s.sendToAddress.addr = INADDR_BROADCAST → s.broadcast = false → ∀ n, (k.answers n).bytes = -1

section
variable {s : UDPSender} {datagrams : List (List UInt8)} {k : Kernel}

theorem delivered_eq_nil (h : ∀ r ∈ (s.sendAll datagrams k).1, r.bytes = -1) :
    s.delivered datagrams k = [] := by
  refine List.filterMap_eq_nil_iff.2 ?_
  rintro ⟨r, d⟩ hrd
  rw [h r (List.of_mem_zip hrd).1]
  rfl

theorem sendAll_closed (hs : s.socket = -1) :
    ∀ (datagrams : List (List UInt8)) (k : Kernel),
      ∀ r ∈ (s.sendAll datagrams k).1, r.bytes = -1
  | [], _, _, hr => by cases hr
  | datagram :: datagrams, k, r, hr => by
    have hsend : s.send datagram k = (⟨-1, UDPSender.EBADF⟩, k) := if_pos hs
    rw [UDPSender.sendAll, hsend] at hr
    rcases List.mem_cons.1 hr with rfl | hr
    · rfl
    · exact sendAll_closed hs datagrams k r hr

theorem sendAll_refused (hfit : ∀ d ∈ datagrams, d ≠ [] ∧ d.length ≤ UDPSender.MAX_LENGTH)
    (hk : ∀ n, (k.answers n).bytes = -1) : ∀ r ∈ (s.sendAll datagrams k).1, r.bytes = -1 := by
  by_cases hs : s.socket = -1
  · exact sendAll_closed hs datagrams k
  · intro r hr
    rw [sendAll_passes hs hfit] at hr
    obtain ⟨n, -, rfl⟩ := List.mem_map.1 hr
    exact hk n

theorem delivered_eq_map (hs : s.socket ≠ -1)
    (hfit : ∀ d ∈ datagrams, d ≠ [] ∧ d.length ≤ UDPSender.MAX_LENGTH)
    (hk : ∀ n, 0 ≤ (k.answers n).bytes) :
    s.delivered datagrams k = datagrams.map fun d => (s.sendToAddress, d) := by
  have hall : ∀ x ∈ (s.sendAll datagrams k).1.zip datagrams, 0 ≤ x.1.bytes := by
    rintro ⟨r, d⟩ hrd
    have hr := (List.of_mem_zip hrd).1
    rw [sendAll_passes hs hfit] at hr
    obtain ⟨n, -, rfl⟩ := List.mem_map.1 hr
    exact hk n
  have hlen : datagrams.length ≤ (s.sendAll datagrams k).1.length := by
    rw [sendAll_passes hs hfit, List.length_map, List.length_range]
  calc s.delivered datagrams k
      = ((s.sendAll datagrams k).1.zip datagrams).filterMap
          (some ∘ fun x => (s.sendToAddress, x.2)) :=
        List.filterMap_congr fun x hx => if_pos (hall x hx)
    _ = (((s.sendAll datagrams k).1.zip datagrams).map Prod.snd).map
          fun d => (s.sendToAddress, d) := by rw [List.filterMap_eq_map, List.map_map]; rfl
    _ = datagrams.map fun d => (s.sendToAddress, d) := by rw [List.map_snd_zip hlen]

end

/-- What the constructor makes of a name that resolves. -/
theorem make_of_resolved {sys : System} {name : Str} {a : UInt32} {port : UInt16}
    (hr : sys.resolve name = some a) (hne : name ≠ []) (hp : port ≠ 0) :
    UDPSender.make sys name port =
      { socket := sys.socket.elim (-1) Int.ofNat
        sendToAddress := ⟨inetAddr name, port⟩
        broadcast := sys.socket.isSome && UDPSender.isBroadcast sys name && sys.setsockopt } := by
  have hname : UDPSender.getIPv4FromHostname sys name = inetNtop a := by
    rw [UDPSender.getIPv4FromHostname, if_pos hne, hr]
  have htokens := tokens_inetNtop a
  have hbytes : ((octets a).map Int.ofNat).all (fun a => !(a < 0 || a > 255)) = true := by
    rw [List.all_map, List.all_eq_true]
    intro n hn
    have := octets_lt a n hn
    simp
    omega
  have hpos : 0 < port := by
    rw [UInt16.lt_iff_toNat_lt]
    exact Nat.pos_of_ne_zero fun h => hp (UInt16.toNat_inj.1 h)
  rw [UDPSender.make, hname]
  dsimp only at htokens ⊢
  rw [htokens, if_pos ⟨hne, rfl, hbytes, hpos⟩]

theorem make_of_no_port (sys : System) (name : Str) : (UDPSender.make sys name 0).socket = -1 := by
  rw [UDPSender.make, if_neg fun h => absurd h.2.2.2 (by decide)]

/-- A name that is no address has the address of the limited broadcast, and may
    not broadcast. -/
theorem make_of_name (sys : System) {name : Str} (hname : inetAddr name = INADDR_NONE)
    (hne : name ≠ "255.255.255.255".toList) (port : UInt16) :
    (UDPSender.make sys name port).socket = -1 ∨
      (UDPSender.make sys name port).sendToAddress.addr = INADDR_BROADCAST ∧
        (UDPSender.make sys name port).broadcast = false := by
  have hb : UDPSender.isBroadcast sys name = false := by
    rw [UDPSender.isBroadcast, Bool.or_eq_false_iff]
    refine ⟨decide_eq_false hne, ?_⟩
    rw [← Bool.not_eq_true, List.contains_iff_mem]
    intro hmem
    obtain ⟨b, -, rfl⟩ := List.mem_map.1 hmem
    -- the only broadcast address that reads as no address is the limited one
    rw [inetAddr_inetNtop] at hname
    rw [hname] at hne
    exact hne (by decide)
  rw [UDPSender.make]
  split_ifs
  · exact Or.inr ⟨hname, by rw [hb, Bool.and_false, Bool.false_and]⟩
  · exact Or.inl rfl

section
variable {R FS : Type} [CDouble R] [HighFive R FS] [Host] {clock₀ : UInt64} {frequency : R}
  {type : Int} {fs : FS} {socket : ℕ → SendResult} {draws : ℕ → Draw} {w₀ : World R FS}

/-- **Datagrams for an address.**  If the `Readout` is given the text of an
    address, the datagrams of every run go to this address, in order and as they
    are, at the port modulo `2 ^ 16`; none is sent if that is zero. -/
theorem delivered_to_address
    (hw : readoutCreate clock₀ frequency type fs socket draws = .ok w₀) (calls : List (Call R))
    {sys : System} {a : UInt32} {fd : ℕ} {k : Kernel} (hr : sys.resolve (inetNtop a) = some a)
    (hs : sys.socket = some fd) (port : Int) (hk : ∀ n, 0 ≤ (k.answers n).bytes) :
    (Readout.sender sys (inetNtop a) port).delivered (runCalls w₀ calls).datagrams k =
      if port % 65536 = 0 then []
      else (runCalls w₀ calls).datagrams.map fun d => (⟨a, UInt16.ofInt port⟩, d) := by
  have hport : UInt16.ofInt port = 0 ↔ port % 65536 = 0 := by
    rw [← UInt16.toNat_inj, UInt16.ofInt, UInt16.toNat_ofNat', UInt16.toNat_zero]
    omega
  rw [Readout.sender]
  split_ifs with h0
  · rw [hport.2 h0]
    exact delivered_eq_nil (sendAll_closed (make_of_no_port sys _) _ _)
  · rw [make_of_resolved hr (inetNtop_ne_nil a) fun h => h0 (hport.1 h), hs, inetAddr_inetNtop]
    refine delivered_eq_map ?_ (fitting_run hw calls).passable hk
    show (fd : Int) ≠ -1
    omega

/-- **Datagrams for a name.**  If the `Readout` is given a name that is no
    address, none of the datagrams of any run is sent, whatever the name
    resolves to: `::sendto` fails for all of them. -/
theorem named_undelivered
    (hw : readoutCreate clock₀ frequency type fs socket draws = .ok w₀) (calls : List (Call R))
    (sys : System) {name : Str} (hname : inetAddr name = INADDR_NONE)
    (hne : name ≠ "255.255.255.255".toList) (port : Int) {k : Kernel}
    (hk : k.Refuses (Readout.sender sys name port)) :
    (∀ r ∈ ((Readout.sender sys name port).sendAll (runCalls w₀ calls).datagrams k).1,
        r.bytes = -1) ∧
      (Readout.sender sys name port).delivered (runCalls w₀ calls).datagrams k = [] := by
  have hall : ∀ r ∈ ((Readout.sender sys name port).sendAll (runCalls w₀ calls).datagrams k).1,
      r.bytes = -1 := by
    rcases make_of_name sys hname hne (UInt16.ofInt port) with hs | ⟨ha, hb⟩
    · exact sendAll_closed hs _ _
    · exact sendAll_refused (fitting_run hw calls).passable (hk ha hb)
  exact ⟨hall, delivered_eq_nil hall⟩

end

/-- A system that finds addresses, and one name. -/
def oneName : System where
  resolve name :=
    if name = "ttl_monitor_efu".toList then some 0x0a000007
    else if inetAddr name = INADDR_NONE then none
    else some (inetAddr name)
  socket := some 3
  broadcasts := [0x0a0000ff]
  setsockopt := true

/-- The calls of a run that sends two packets. -/
def twoPackets : List (Call ℚ) := [.send, .setPulseTime 12500000000]

theorem delivered_to_address_atTen :
    let datagrams := (runCalls (atTen .BIFROST) twoPackets).datagrams
    (Readout.sender oneName "127.0.0.1".toList 9000).delivered datagrams takesAll =
        datagrams.map (fun d => (⟨0x7f000001, 9000⟩, d)) ∧ datagrams.length = 2 := by
  intro datagrams
  have hr : oneName.resolve (inetNtop 0x7f000001) = some 0x7f000001 := by decide +kernel
  have htakes : ∀ n, 0 ≤ (takesAll.answers n).bytes := fun _ => (by decide : (0 : Int) ≤ 30)
  have hsend := delivered_to_address (create_atTen .BIFROST) twoPackets hr rfl 9000 htakes
  exact ⟨hsend, by decide +kernel⟩

/-- A system that refuses broadcasts, and everything else. -/
def refusesAll : Kernel := ⟨fun _ => ⟨-1, 13, by decide⟩, []⟩

theorem named_undelivered_atTen :
    let datagrams := (runCalls (atTen .BIFROST) twoPackets).datagrams
    (Readout.sender oneName "ttl_monitor_efu".toList 9001).delivered datagrams refusesAll = [] ∧
      datagrams.length = 2 := by
  intro datagrams
  have hname : inetAddr "ttl_monitor_efu".toList = INADDR_NONE := by decide +kernel
  have hrefuses : refusesAll.Refuses (Readout.sender oneName "ttl_monitor_efu".toList 9001) :=
    fun _ _ _ => rfl
  have hsend := named_undelivered (create_atTen .BIFROST) twoPackets oneName hname (by decide)
    9001 hrefuses
  exact ⟨hsend.2, by decide +kernel⟩

end ReadoutMaster
