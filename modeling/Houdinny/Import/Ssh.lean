import Houdinny.Config.Append

/-!
# Importing SSH tunnels

`generateToml` writes one `[[tunnel]]` block for every port on which `ssh` is a SOCKS5
proxy. The text is the rendering of a TOML document (`generateToml_eq_render`), whose
strings need no escapes if the host does not (`plain_portPairs`).

The address of a tunnel is the port of the local machine, and only its label has the host:
this is why a host that needs escapes may change the file, though no connection goes to it
by that name.
-/

namespace Houdinny.Ssh

open Text Toml

/-- The label of the tunnel of a port. -/
def label (host : Text) (port : UInt16) : Text :=
  "ssh-".toList ++ host ++ "-".toList ++ ofNat port.toNat

/-- Generate TOML `[[tunnel]]` blocks for SSH SOCKS5 tunnels. -/
def generateToml (host : Text) (ports : List UInt16) : Text :=
  "# Generated by: houdinny import ssh\n".toList ++ ports.flatMap fun port =>
    "\n[[tunnel]]\nprotocol = \"socks5\"\n".toList ++
      ("address = \"127.0.0.1:".toList ++ ofNat port.toNat ++ "\"\n".toList) ++
      ("label = \"".toList ++ label host port ++ "\"\n".toList)

/-- The pairs of the block of a port. -/
def portPairs (host : Text) (port : UInt16) : Pairs :=
  socksPairs ("127.0.0.1:".toList ++ ofNat port.toNat) (label host port)

/-- The comment on the first line. -/
def banner : Text := " Generated by: houdinny import ssh".toList

/-- The block of a port, line by line. -/
theorem render_portPairs (host : Text) (port : UInt16) :
    (Doc.block tunnelKey (portPairs host port)).render =
      "\n[[tunnel]]\nprotocol = \"socks5\"\n".toList ++
      ("address = \"127.0.0.1:".toList ++ ofNat port.toNat ++ "\"\n".toList) ++
      ("label = \"".toList ++ label host port ++ "\"\n".toList) := by
  simp only [Doc.block, portPairs, socksPairs, List.map_cons, List.map_nil, Doc.render_cons,
    Line.render, List.append_assoc]
  generalize ofNat port.toNat = digits
  generalize label host port = label
  rfl

/-- What is generated is the rendering of the comment, and of a block for each port. -/
theorem generateToml_eq_render (host : Text) (ports : List UInt16) :
    generateToml host ports = Doc.render [.comment banner] ++
      Doc.render ((ports.map (portPairs host)).flatMap (Doc.block tunnelKey)) := by
  have hblocks : Doc.render ((ports.map (portPairs host)).flatMap (Doc.block tunnelKey)) =
      ports.flatMap fun port => (Doc.block tunnelKey (portPairs host port)).render := by
    rw [Doc.render, List.flatMap_assoc, List.flatMap_map]
    rfl
  rw [hblocks]
  simp only [render_portPairs]
  rfl

/-- The tunnel of a port. -/
def portTunnel (host : Text) (port : UInt16) : TunnelConfig :=
  socksTunnel ("127.0.0.1:".toList ++ ofNat port.toNat) (label host port)

/-- The block of a port describes its tunnel. -/
theorem describes_portPairs (host : Text) (port : UInt16) :
    Describes (portPairs host port) (portTunnel host port) :=
  describes_socksPairs _ _

/-- The strings of a port need no escapes if the host does not. -/
theorem plain_portPairs {host : Text} {port : UInt16} :
    (∀ kv ∈ portPairs host port, Plain kv.2) ↔ Plain host := by
  have haddress : Plain ("127.0.0.1:".toList ++ ofNat port.toNat) :=
    .append (by decide) (plain_ofNat _)
  have hssh : Plain "ssh-".toList := by decide
  have hdash : Plain "-".toList := by decide
  rw [portPairs, plain_socksPairs, and_iff_right haddress]
  change Plain ("ssh-".toList ++ host ++ "-".toList ++ ofNat port.toNat) ↔ _
  simp only [plain_append, hssh, hdash, plain_ofNat, true_and, and_true]

end Houdinny.Ssh
