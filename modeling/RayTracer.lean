import RayTracer.Command.Host.Standard
import RayTracer.Main
import RayTracer.Picture.Reader
import RayTracer.Proofs.Command.Runs
import RayTracer.Proofs.Geometry.Corners
import RayTracer.Proofs.Geometry.Division
import RayTracer.Proofs.Geometry.Hulls
import RayTracer.Proofs.Hierarchy.Balance
import RayTracer.Proofs.Hierarchy.Splits
import RayTracer.Proofs.Hierarchy.Structure
import RayTracer.Proofs.Hierarchy.Unions
import RayTracer.Proofs.Number.Arithmetic
import RayTracer.Proofs.Number.Mantissa
import RayTracer.Proofs.Number.Operations
import RayTracer.Proofs.Number.Opposite
import RayTracer.Proofs.Number.Order
import RayTracer.Proofs.Number.Quotient
import RayTracer.Proofs.Picture.Pixmaps
import RayTracer.Proofs.Picture.Prefixes
import RayTracer.Proofs.Picture.Tables
import RayTracer.Proofs.Random.Draws
import RayTracer.Proofs.Render.Backdrops
import RayTracer.Proofs.Render.Bands
import RayTracer.Proofs.Render.Partitions
import RayTracer.Proofs.Render.Pixels
import RayTracer.Proofs.Render.Regions
import RayTracer.Proofs.Render.Samples
import RayTracer.Proofs.Scene.Histories
import RayTracer.Proofs.Scene.Shadows
import RayTracer.Proofs.Search.Closest
import RayTracer.Proofs.Search.Genuine
import RayTracer.Proofs.Search.Reach
import RayTracer.Proofs.Search.Walk
import RayTracer.Proofs.Shading.Brightness
import RayTracer.Proofs.Shading.Chains
import RayTracer.Proofs.Surface.Narrowing
import RayTracer.Proofs.Surface.Probes
import RayTracer.Scene.History
import RayTracer.Shading.Path
